import Roster.Proofs.Number.Shortest
import Roster.Proofs.Scalar.Comparison
import Roster.Proofs.Scalar.IntegerLiteral
import Roster.Proofs.Time.Writing

/-!
# Displayed scalars

What is displayed for a scalar that was read is read as a scalar with an order again, and it has no
letters (`isOrdered_display`): an integer and a timestamp come back as they were
(`ofText_display_of_ofText`), a decimal comes back as a decimal or, if it is displayed without a point,
as an integer.

The exception are decimals of the magnitude `2 ^ 63` or more (`IsVast`). They are displayed without a
point too, but as no word of 64 bits, and an infinity by its name; these texts stand for themselves
(`not_isOrdered_of_isVast`).
-/

namespace Roster

open Number Text Time

/-! ## Proper scalars -/

namespace Number

theorem isProper_of_binary64? {cs : List Char} {v : Binary64} (h : binary64? cs = some v) :
    v.IsProper := by
  have hunsigned {negative : Bool} {cs : List Char} (h : unsignedBinary64? negative cs = some v) :
      v.IsProper := by
    unfold unsignedBinary64? at h
    split at h
    · obtain rfl := Option.some.inj h
      trivial
    · split at h
      · obtain rfl := Option.some.inj h
        trivial
      · obtain ⟨m, e, rfl⟩ := exists_ofDecimal_of_unsignedLiteral? h
        exact Binary64.isProper_ofDecimal _ _ _
  unfold binary64? at h
  split at h <;> exact hunsigned h

end Number

namespace Scalar

/-- Whether a scalar is a decimal or a timestamp that can be read. -/
def IsProper : Scalar → Prop
  | .decimal v => v.IsProper
  | .time t => t.IsProper
  | _ => True

theorem isProper_ofText (s : String) : (ofText s).IsProper := by
  unfold ofText
  dsimp only
  split
  · rename_i scalar hnumber
    split at hnumber
    · obtain ⟨v, hv, rfl⟩ := Option.map_eq_some_iff.mp hnumber
      exact isProper_of_binary64? hv
    · obtain ⟨n, -, rfl⟩ := Option.map_eq_some_iff.mp hnumber
      trivial
  · split
    · rename_i t ht
      exact isProper_of_read? ht
    · trivial

/-! ## What is displayed for a decimal -/

section Decimals

variable {negative : Bool} {m : Nat} {e : Int}

/-- The minus sign of a negative number. -/
def signText (negative : Bool) : List Char :=
  if negative then ['-'] else []

/-- The literal of digits after a sign. -/
def wholeLiteral (negative : Bool) (ds : List Char) (hne : ds ≠ [])
    (hds : ∀ c ∈ ds, c.isDigit = true) : IntegerLiteral where
  sign := signText negative
  digits := ds
  sign_mem := by cases negative <;> decide
  digits_ne_nil := hne
  isDigit := hds

/-- A literal whose magnitude is not the bound itself is a word on one side of it. -/
private theorem isWord_wholeLiteral_iff {ds : List Char} (hne : ds ≠ []) (hds : ∀ c ∈ ds, c.isDigit = true)
    (h : Nat.ofDigitChars 10 ds 0 ≠ 2 ^ 63) :
    (wholeLiteral negative ds hne hds).IsWord ↔ Nat.ofDigitChars 10 ds 0 < 2 ^ 63 := by
  have hmagnitude : (wholeLiteral negative ds hne hds).magnitude = Nat.ofDigitChars 10 ds 0 := rfl
  unfold IntegerLiteral.IsWord IntegerLiteral.value
  split <;> omega

/-- Digits that denote the shortest decimal of a value are on its side of `2 ^ 63`. -/
private theorem ofDigitChars_lt_iff_of_shortest {ds : List Char}
    (h : (Binary64.finite negative m e).IsProper) (hpos : 0 < m)
    (hvalue : (Nat.ofDigitChars 10 ds 0 : ℚ) = (shortest .up m e).value) :
    Nat.ofDigitChars 10 ds 0 ≠ 2 ^ 63 ∧
      (Nat.ofDigitChars 10 ds 0 < 2 ^ 63 ↔ Binary64.magnitude m e < 2 ^ 63) := by
  rcases lt_or_ge (Binary64.magnitude m e) (2 ^ 63) with hless | hvast
  · have hbound : (Nat.ofDigitChars 10 ds 0 : ℚ) < 2 ^ 63 :=
      hvalue.trans_lt ((shortest_bounds .up hpos h.1 e).2.trans_lt
        (Binary64.magnitude_add_lt h hless))
    have hlt : Nat.ofDigitChars 10 ds 0 < 2 ^ 63 := by exact_mod_cast hbound
    exact ⟨hlt.ne, iff_of_true hlt hless⟩
  · have hbound := (Binary64.lt_value_shortest h hvast).trans_eq hvalue.symm
    have hgt : 2 ^ 63 < Nat.ofDigitChars 10 ds 0 := by exact_mod_cast hbound
    exact ⟨hgt.ne', iff_of_false hgt.not_gt hvast.not_gt⟩

/-- What is displayed for a finite decimal: digits with a point among them if it is below `2 ^ 63`, or
the literal of an integer, which is a word exactly if the decimal is below `2 ^ 63`. -/
theorem decimalText_cases (h : (Binary64.finite negative m e).IsProper) :
    (Binary64.magnitude m e < 2 ^ 63 ∧ ∃ whole fraction, whole ≠ [] ∧
      (∀ c ∈ whole, c.isDigit = true) ∧ (∀ c ∈ fraction, c.isDigit = true) ∧
      decimalText (.finite negative m e) = signText negative ++ (whole ++ '.' :: fraction)) ∨
    ∃ l : IntegerLiteral, decimalText (.finite negative m e) = l.text.toList ∧
      (l.IsWord ↔ Binary64.magnitude m e < 2 ^ 63) := by
  cases hn : (Binary64.integral? m e).filter (· < 10000000000000000) with
  | some n =>
    simp only [decimalText, hn]
    obtain ⟨hintegral, hless⟩ := Option.filter_eq_some_iff.mp hn
    have hsmall : (n : ℚ) < 2 ^ 63 := by
      have hlt : n < 2 ^ 63 := (of_decide_eq_true hless).trans (by decide)
      exact_mod_cast hlt
    refine .inl ⟨by rwa [Binary64.magnitude_of_integral? hintegral], naturalText n, ['0'],
      naturalText_ne_nil n, fun _ => isDigit_of_mem_naturalText, by simp, rfl⟩
  | none =>
    simp only [decimalText, hn]
    -- A zero is integral, so it is with the first case.
    have hpos : 0 < m := by
      refine Nat.pos_of_ne_zero ?_
      rintro rfl
      have hzero : Binary64.integral? 0 e = some 0 := by simp [Binary64.integral?]
      rw [hzero] at hn
      cases hn
    rcases (shortest .up m e).positionalText_cases with
      ⟨-, hdigits, hne, hvalue⟩ | ⟨hexponent, whole, fraction, hne, hwhole, hfraction, htext⟩
    · obtain ⟨hbound, hside⟩ := ofDigitChars_lt_iff_of_shortest h hpos hvalue
      refine .inr ⟨wholeLiteral negative _ hne hdigits, ?_, ?_⟩
      · rw [IntegerLiteral.toList_text]
        rfl
      · exact (isWord_wholeLiteral_iff hne hdigits hbound).trans hside
    · refine .inl ⟨?_, whole, fraction, hne, hwhole, hfraction, by rw [htext]; rfl⟩
      by_contra hvast
      -- From `10 ^ 18` on the digits end before the point.
      have hlarge : (10 : ℚ) ^ 18 ≤ Binary64.magnitude m e :=
        le_trans (by norm_num) (not_lt.mp hvast)
      exact (exponent_shortest_pos .up h.1 hlarge).not_gt hexponent

end Decimals

/-! ## Reading what is displayed -/

/-- Whether a scalar is an infinity or a decimal of the magnitude `2 ^ 63` or more. -/
def IsVast : Scalar → Prop
  | .decimal (.finite _ m e) => 2 ^ 63 ≤ Binary64.magnitude m e
  | .decimal (.infinite _) => True
  | _ => False

/-- Digits with a point among them are a decimal. -/
theorem ofText_point (negative : Bool) {whole fraction : List Char} (hne : whole ≠ [])
    (hwhole : ∀ c ∈ whole, c.isDigit = true) (hfraction : ∀ c ∈ fraction, c.isDigit = true) :
    (∀ c ∈ signText negative ++ (whole ++ '.' :: fraction), isCaseless c = true) ∧
      ∃ v, ofText (String.ofList (signText negative ++ (whole ++ '.' :: fraction))) = decimal v := by
  obtain ⟨v, hv⟩ := exists_binary64?_point negative hne hwhole hfraction
  have hsign : ∀ c ∈ signText negative, isCaseless c = true := by
    cases negative <;> simp [signText, isCaseless]
  refine ⟨List.forall_mem_append.mpr ⟨hsign, List.forall_mem_append.mpr
    ⟨fun c hc => isCaseless_of_isDigit (hwhole c hc), List.forall_mem_cons.mpr
      ⟨by decide, fun c hc => isCaseless_of_isDigit (hfraction c hc)⟩⟩⟩, v, ?_⟩
  rw [signText]
  simp [ofText, hv]

/-- A timestamp is no number. -/
theorem ofText_timeText {t : Timestamp} (h : t.IsProper) : ofText (String.ofList t.text) = time t := by
  obtain ⟨n, rest, htext⟩ := t.exists_text_eq
  have hne : padded 4 n ≠ [] := by simp [padded, naturalText_ne_nil]
  have hyear : ∀ c ∈ padded 4 n, c.isDigit = true := fun _ => isDigit_of_mem_padded
  have hread := read?_text h
  rw [htext] at hread ⊢
  simp [ofText, binary64?_dash hne hyear, int64?_dash hne hyear, hread]

/-- What is displayed for a scalar with an order has no letters and is read as a scalar with an order,
unless it is vast. -/
theorem isOrdered_display {a : Scalar} (hproper : a.IsProper) (hnan : a ≠ decimal .nan)
    (hordered : a.isOrdered = true) (hvast : ¬ a.IsVast) :
    (∀ c ∈ a.display.toList, isCaseless c = true) ∧ (ofText a.display).isOrdered = true := by
  cases a with
  | integer n =>
    rw [display, String.toList_ofList, ofText_integerText]
    exact ⟨fun _ => isCaseless_of_mem_integerText, rfl⟩
  | decimal v =>
    cases v with
    | finite negative m e =>
      rw [display, String.toList_ofList]
      rcases decimalText_cases hproper with
        ⟨-, whole, fraction, hne, hwhole, hfraction, htext⟩ | ⟨l, htext, hword⟩
      · obtain ⟨hcaseless, v, hv⟩ := ofText_point negative hne hwhole hfraction
        rw [htext, hv]
        exact ⟨hcaseless, rfl⟩
      · rw [htext, String.ofList_toList, l.ofText_of_isWord (hword.mpr (not_le.mp hvast))]
        exact ⟨fun _ => l.isCaseless_of_mem_text, rfl⟩
    | infinite negative => exact absurd trivial hvast
    | nan => exact absurd rfl hnan
  | time t =>
    rw [display, String.toList_ofList, ofText_timeText hproper]
    exact ⟨fun _ => isCaseless_of_mem_text, rfl⟩
  | text s => cases hordered

theorem isOrdered_ofText {s : String} (h : (ofText s).isOrdered = true) :
    '.' ∈ s.toList ∨ (∃ n, int64? s.toList = some n) ∨ ∃ t, Timestamp.read? s.toList = some t := by
  unfold ofText at h
  dsimp only at h
  split at h
  · rename_i scalar hnumber
    split at hnumber
    · rename_i hpoint
      exact .inl (List.contains_iff_mem.mp hpoint)
    · obtain ⟨n, hn, -⟩ := Option.map_eq_some_iff.mp hnumber
      exact .inr (.inl ⟨n, hn⟩)
  · split at h
    · rename_i t ht
      exact .inr (.inr ⟨t, ht⟩)
    · cases h

private theorem isCaseless_of_int64? {cs : List Char} {n : Int64} (h : int64? cs = some n) :
    ∀ c ∈ cs, isCaseless c = true := by
  have hsigns : ∀ c ∈ ['+', '-'], isCaseless c = true := List.all_eq_true.mp (by decide)
  obtain ⟨_, hin, -⟩ := Option.map_eq_some_iff.mp h
  obtain ⟨sign, ds, rfl, hsign, hds⟩ := digits_of_integer? (Option.filter_eq_some_iff.mp hin).1
  exact List.forall_mem_append.mpr ⟨fun c hc => hsigns c (hsign c hc),
    fun c hc => isCaseless_of_isDigit (hds c hc)⟩

/-- The name of an infinity, in whichever letter case, is no number without a point and no time. -/
theorem not_isOrdered_of_infinite {s : String} (negative : Bool)
    (hsame : lower s.toList = signText negative ++ ['i', 'n', 'f']) :
    (ofText s).isOrdered = false := by
  refine Bool.eq_false_iff.mpr fun hordered => ?_
  -- What is ordered has a point, is read as an integer, or starts with a digit. The display has
  -- none of the three.
  rcases isOrdered_ofText hordered with hpoint | ⟨n, hn⟩ | ⟨t, ht⟩
  · have hlower := mem_lower hpoint (by decide)
    rw [hsame] at hlower
    revert hlower
    cases negative <;> decide
  · have hnone : int64? (signText negative ++ ['i', 'n', 'f']) = none := by
      cases negative <;> decide
    rw [← hsame, lower_of_isCaseless (isCaseless_of_int64? hn), hn] at hnone
    cases hnone
  · cases hs : s.toList with
    | nil =>
      rw [hs] at ht
      cases ht
    | cons c cs =>
      rw [hs] at ht hsame
      have hdigit : c.isDigit = true := isDigit_of_read? ht
      have hhead := congrArg List.head? hsame
      rw [head?_lower (isCaseless_of_isDigit hdigit)] at hhead
      cases negative <;> cases hhead <;> exact absurd hdigit (by decide)

/-- What is displayed for a vast scalar stands for itself, in whichever letter case. -/
theorem not_isOrdered_of_isVast {a : Scalar} {s : String} (hproper : a.IsProper) (hvast : a.IsVast)
    (hsame : lower s.toList = lower a.display.toList) : (ofText s).isOrdered = false := by
  cases a with
  | decimal v =>
    cases v with
    | finite negative m e =>
      rw [display, String.toList_ofList] at hsame
      rcases decimalText_cases hproper with ⟨hless, -⟩ | ⟨l, htext, hword⟩
      · exact absurd hless (not_lt.mpr hvast)
      · have hcaseless : ∀ c ∈ l.text.toList, isCaseless c = true := fun _ => l.isCaseless_of_mem_text
        have hnotWord : ¬ l.IsWord := mt hword.mp (not_lt.mpr hvast)
        rw [htext, lower_of_isCaseless hcaseless] at hsame
        rw [String.toList_inj.mp (eq_of_lower_eq hcaseless hsame), l.ofText_of_not_isWord hnotWord]
        rfl
    | infinite negative =>
      rw [display, String.toList_ofList] at hsame
      refine not_isOrdered_of_infinite negative (hsame.trans ?_)
      cases negative <;> decide
    | nan => exact hvast.elim
  | _ => exact hvast.elim

/-! ## Integers and timestamps -/

/-- **A displayed integer or timestamp is read as itself.** If a text denotes an integer or a timestamp,
however it spells it, what is displayed for it denotes the same again: the same word, or the same wall time
with the same offset from UTC or, as before, without one. The two are equal. -/
theorem ofText_display_of_ofText {s : String} {x : Scalar} (h : ofText s = x)
    (hkind : (∃ n, x = integer n) ∨ ∃ t, x = time t) :
    ofText x.display = x ∧ (ofText x.display).equals x = true := by
  have hread : ofText x.display = x := by
    rcases hkind with ⟨n, rfl⟩ | ⟨t, rfl⟩
    · exact ofText_integerText n
    · have hproper : (time t).IsProper := h ▸ isProper_ofText s
      exact ofText_timeText hproper
  have hnan : x ≠ decimal .nan := h ▸ ofText_ne_nan s
  exact ⟨hread, hread.symm ▸ equals_self hnan⟩

/-- A leap second with two digits of a fraction and a west offset after the minus sign of print. -/
theorem ofText_display_leapSecond :
    let leap := time (.aware ⟨⟨2016, 12, 31⟩, 23, 59, 60, 500000000⟩ (-150))
    ofText "2016-12-31T23:59:60.50−0230" = leap ∧
      leap.display = "2016-12-31 23:59:60.500-02:30" ∧
      ofText "2016-12-31 23:59:60.500-02:30" = leap := by
  intro leap
  have hread : ofText "2016-12-31T23:59:60.50−0230" = leap := by decide
  have hdisplay : leap.display = "2016-12-31 23:59:60.500-02:30" := by decide
  obtain ⟨hagain, -⟩ := ofText_display_of_ofText hread (.inr ⟨_, rfl⟩)
  exact ⟨hread, hdisplay, hdisplay ▸ hagain⟩

end Scalar

end Roster
