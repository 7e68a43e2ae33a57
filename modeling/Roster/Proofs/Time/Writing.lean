import Roster.Proofs.Number.Digits
import Roster.Proofs.Text.Lowercase
import Roster.Proofs.Time.Reading

/-!
# Written timestamps

A timestamp that was read is a proper one (`isProper_of_read?`): its date exists, its hours, minutes,
seconds and nanoseconds are in their ranges, and its offset is less than a day. What is written for a
proper timestamp is read as that timestamp (`read?_text`).
-/

namespace Roster.Time

open Roster.Number Roster.Text

/-! ## Proper timestamps -/

/-- Whether a date exists and has a year of four digits. -/
def Date.IsProper (d : Date) : Prop :=
  d.year < 10 ^ 4 ∧ d.exists? = true

/-- Whether a wall time has a proper date and its parts are in their ranges. -/
structure WallTime.IsProper (t : WallTime) : Prop where
  date : t.date.IsProper
  hour : t.hour < 24
  minute : t.minute < 60
  second : t.second ≤ 60
  nanosecond : t.nanosecond < 10 ^ 9

/-- Whether a timestamp has a proper wall time and an offset of less than a day. -/
def Timestamp.IsProper : Timestamp → Prop
  | .aware wall offset => wall.IsProper ∧ offset.natAbs < 24 * 60
  | .naive wall => wall.IsProper

section Reading

variable {cs rest : List Char}

theorem isProper_of_date? {date : Date} (h : date? cs = some (date, rest)) : date.IsProper := by
  simp only [date?, Option.bind_eq_bind, Option.bind_eq_some_iff, Prod.exists] at h
  obtain ⟨year, _, hyear, _, -, month, _, -, _, -, day, _, -, h⟩ := h
  simp only [Option.ite_none_right_eq_some, Option.some.injEq, Prod.mk.injEq] at h
  obtain ⟨hexists, rfl, -⟩ := h
  obtain ⟨ds, -, hlength, hdigits, rfl⟩ := digits?_eq_some hyear
  exact ⟨hlength ▸ ofDigitChars_lt hdigits, hexists⟩

private theorem lt_of_fraction? {n : Nat} (h : fraction? cs = some (n, rest)) : n < 10 ^ 9 := by
  unfold fraction? at h
  split at h
  · rename_i cs
    split at h
    · cases h
    · rename_i ds hds
      simp only [Option.some.injEq, Prod.mk.injEq] at h
      obtain ⟨rfl, -⟩ := h
      have hkept : ∀ c ∈ (cs.takeWhile Char.isDigit).take 9, c.isDigit = true := fun c hc =>
        List.all_eq_true.mp List.all_takeWhile c (List.mem_of_mem_take hc)
      have hlength : ((cs.takeWhile Char.isDigit).take 9).length ≤ 9 := List.length_take_le 9 _
      generalize (cs.takeWhile Char.isDigit).take 9 = kept at hkept hlength ⊢
      calc Nat.ofDigitChars 10 kept 0 * 10 ^ (9 - kept.length)
          < 10 ^ kept.length * 10 ^ (9 - kept.length) :=
            Nat.mul_lt_mul_of_pos_right (ofDigitChars_lt hkept) (Nat.pow_pos (by decide))
        _ = 10 ^ 9 := by rw [← Nat.pow_add, Nat.add_sub_cancel' hlength]
  · simp only [Option.some.injEq, Prod.mk.injEq] at h
    obtain ⟨rfl, -⟩ := h
    decide

private theorem bounds_of_seconds? {second nanosecond : Nat}
    (h : seconds? cs = some (second, nanosecond, rest)) : second ≤ 60 ∧ nanosecond < 10 ^ 9 := by
  unfold seconds? at h
  split at h
  · simp only [Option.bind_eq_bind, Option.bind_eq_some_iff, Prod.exists] at h
    obtain ⟨_, _, -, _, _, hfraction, h⟩ := h
    simp only [Option.ite_none_right_eq_some, Option.some.injEq, Prod.mk.injEq] at h
    obtain ⟨hle, rfl, rfl, -⟩ := h
    exact ⟨hle, lt_of_fraction? hfraction⟩
  · simp only [Option.some.injEq, Prod.mk.injEq] at h
    obtain ⟨rfl, rfl, -⟩ := h
    decide

private theorem lt_of_offsetDigits? {n : Nat} (h : offsetDigits? cs = some n) : n < 24 * 60 := by
  simp only [offsetDigits?, Option.bind_eq_bind, Option.bind_eq_some_iff, Prod.exists] at h
  obtain ⟨hours, _, -, minutes, _, -, h⟩ := h
  simp only [Option.ite_none_right_eq_some, Bool.and_eq_true, decide_eq_true_eq,
    Option.some.injEq] at h
  obtain ⟨⟨⟨-, hhours⟩, hminutes⟩, rfl⟩ := h
  omega

theorem natAbs_lt_of_offset? {n : Int} (h : offset? cs = some n) : n.natAbs < 24 * 60 := by
  unfold offset? at h
  -- The three signs of an offset; anything else is none.
  split at h
  case h_4 => cases h
  all_goals
    obtain ⟨_, hdigits, rfl⟩ := Option.map_eq_some_iff.mp h
    simpa using lt_of_offsetDigits? hdigits

theorem isProper_of_afterHour? {date : Date} {hour : Nat} {t : Timestamp} (hdate : date.IsProper)
    (h : afterHour? date hour cs = some t) : t.IsProper := by
  simp only [afterHour?, Option.bind_eq_bind, Option.bind_eq_some_iff, Prod.exists] at h
  obtain ⟨minute, _, -, second, nanosecond, last, hseconds, h⟩ := h
  obtain ⟨hsecond, hnanosecond⟩ := bounds_of_seconds? hseconds
  split at h
  · rename_i hrange
    simp only [Bool.and_eq_true, decide_eq_true_eq] at hrange
    have hwall : WallTime.IsProper ⟨date, hour, minute, second, nanosecond⟩ :=
      ⟨hdate, hrange.1, hrange.2, hsecond, hnanosecond⟩
    split at h
    · obtain rfl := Option.some.inj h
      exact hwall
    · obtain ⟨offset, hoffset, rfl⟩ := Option.map_eq_some_iff.mp h
      exact ⟨hwall, natAbs_lt_of_offset? hoffset⟩
  · cases h

/-- What is read is proper. -/
theorem isProper_of_read? {t : Timestamp} (h : Timestamp.read? cs = some t) : t.IsProper := by
  simp only [Timestamp.read?, Option.bind_eq_bind, Option.bind_eq_some_iff, Prod.exists] at h
  obtain ⟨date, afterDate, hdate, h⟩ := h
  have hproper := isProper_of_date? hdate
  split at h
  · obtain rfl := Option.some.inj h
    exact ⟨hproper, (by decide : 0 < 24), (by decide : 0 < 60), (by decide : 0 ≤ 60),
      (by decide : 0 < 10 ^ 9)⟩
  · split at h
    · simp only [Option.bind_eq_some_iff, Prod.exists] at h
      obtain ⟨hour, _, -, h⟩ := h
      exact isProper_of_afterHour? hproper h
    · cases h

end Reading

/-! ## Reading what is written -/

section Writing

variable {rest : List Char}

theorem digits?_append {ds : List Char} (h : ∀ c ∈ ds, c.isDigit = true) (rest : List Char) :
    digits? ds.length (ds ++ rest) = some (Nat.ofDigitChars 10 ds 0, rest) := by
  have hall : ds.all Char.isDigit = true := List.all_eq_true.mpr h
  simp [digits?, hall]

theorem digits?_padded {n width : Nat} (hwidth : 0 < width) (h : n < 10 ^ width)
    (rest : List Char) : digits? width (padded width n ++ rest) = some (n, rest) := by
  have hds : ∀ c ∈ padded width n, c.isDigit = true := fun _ => isDigit_of_mem_padded
  have hdigits := digits?_append hds rest
  rwa [length_padded hwidth h, ofDigitChars_padded] at hdigits

private theorem oneOrTwoDigits?_padded {n : Nat} (h : n < 10 ^ 2) (rest : List Char) :
    oneOrTwoDigits? (padded 2 n ++ rest) = some (n, rest) := by
  have hlength := length_padded (by decide) h
  have hvalue := ofDigitChars_padded 2 n
  have hdigit : ∀ c ∈ padded 2 n, c.isDigit = true := fun _ => isDigit_of_mem_padded
  match hds : padded 2 n with
  | [] | [_] | _ :: _ :: _ :: _ =>
    rw [hds] at hlength
    simp at hlength
  | [c, d] =>
    rw [hds] at hvalue
    have hc : c.isDigit = true := hdigit c (by simp [hds])
    have hd : d.isDigit = true := hdigit d (by simp [hds])
    have hblank := isBlank_of_isDigit hc
    simp [oneOrTwoDigits?, trimStart, hblank, hc, hd, hvalue]

theorem daysInMonth_le (year month : Nat) : daysInMonth year month ≤ 31 := by
  unfold daysInMonth
  split
  · split <;> decide
  · split <;> decide

theorem date?_append {d : Date} (h : d.IsProper) (rest : List Char) :
    date? (padded 4 d.year ++ '-' :: (padded 2 d.month ++ '-' :: (padded 2 d.day ++ rest)))
      = some (d, rest) := by
  obtain ⟨hyear, hexists⟩ := h
  have hparts := hexists
  simp only [Date.exists?, Bool.and_eq_true, decide_eq_true_eq] at hparts
  have hdays := daysInMonth_le d.year d.month
  have hmonth : d.month < 10 ^ 2 := by omega
  have hday : d.day < 10 ^ 2 := by omega
  simp [date?, digits?_padded (by decide) hyear, digits?_padded (by decide) hmonth,
    digits?_padded (by decide) hday, List.isPrefixOf?, hexists]

theorem fraction?_padded {n width : Nat} (hwidth : 0 < width) (hmost : width ≤ 9)
    (h : n < 10 ^ width) (hrest : ∀ c ∈ rest.head?, c.isDigit = false) :
    fraction? ('.' :: padded width n ++ rest) = some (n * 10 ^ (9 - width), rest) := by
  have hdigits : ∀ c ∈ padded width n, c.isDigit = true := fun _ => isDigit_of_mem_padded
  have hlength := length_padded hwidth h
  have hkept : (padded width n).take 9 = padded width n :=
    List.take_of_length_le (hlength.trans_le hmost)
  simp only [fraction?, List.cons_append, takeWhile_digits_append hdigits hrest,
    dropWhile_digits_append hdigits hrest]
  split
  · rename_i hnil
    rw [hnil] at hlength
    exact absurd hlength hwidth.ne
  · rw [hkept, hlength, ofDigitChars_padded]
    rfl

/-- A fraction ends before a text that does not go on with a digit or a point. -/
theorem fraction?_fractionText {n : Nat} (h : n < 10 ^ 9)
    (hrest : ∀ c ∈ rest.head?, c.isDigit = false ∧ c ≠ '.') :
    fraction? (WallTime.fractionText n ++ rest) = some (n, rest) := by
  have hdigit : ∀ c ∈ rest.head?, c.isDigit = false := fun c hc => (hrest c hc).1
  unfold WallTime.fractionText
  split
  · rename_i hzero
    obtain rfl := beq_iff_eq.mp hzero
    cases rest with
    | nil => rfl
    | cons c rest =>
      have hpoint : c ≠ '.' := (hrest c rfl).2
      simp [fraction?, hpoint]
  -- Zeros that are not written are put back.
  · split
    · rename_i hmilli
      have hmul : n / 1000000 * 10 ^ (9 - 3) = n := by rw [beq_iff_eq] at hmilli; omega
      rw [fraction?_padded (by decide) (by decide) (by omega) hdigit, hmul]
    · split
      · rename_i hmicro
        have hmul : n / 1000 * 10 ^ (9 - 6) = n := by rw [beq_iff_eq] at hmicro; omega
        rw [fraction?_padded (by decide) (by decide) (by omega) hdigit, hmul]
      · rw [fraction?_padded (by decide) (by decide) h hdigit, Nat.sub_self, Nat.pow_zero, Nat.mul_one]

theorem seconds?_append {second nanosecond : Nat} (hsecond : second ≤ 60)
    (hnanosecond : nanosecond < 10 ^ 9) (hrest : ∀ c ∈ rest.head?, c.isDigit = false ∧ c ≠ '.') :
    seconds? (':' :: (padded 2 second ++ (WallTime.fractionText nanosecond ++ rest)))
      = some (second, nanosecond, rest) := by
  have hlt : second < 10 ^ 2 := by omega
  simp [seconds?, oneOrTwoDigits?_padded hlt, fraction?_fractionText hnanosecond hrest, hsecond]

/-- No digit is a colon or a blank. -/
private theorem dropWhile_colon {ds : List Char} (h : ∀ c ∈ ds, c.isDigit = true) :
    (':' :: ds).dropWhile (fun c => c == ':' || isBlank c) = ds := by
  rw [List.dropWhile_cons_of_pos (by decide)]
  cases ds with
  | nil => rfl
  | cons d ds =>
    have hd : d.isDigit = true := h d List.mem_cons_self
    have hcolon : d ≠ ':' := by
      rintro rfl
      exact absurd hd (by decide)
    simp [hcolon, isBlank_of_isDigit hd]

theorem offsetDigits?_append {hours minutes : Nat} (hhours : hours < 24) (hminutes : minutes < 60) :
    offsetDigits? (padded 2 hours ++ ':' :: padded 2 minutes) = some (hours * 60 + minutes) := by
  have hminute : digits? 2 (padded 2 minutes) = some (minutes, []) := by
    have hlt : minutes < 10 ^ 2 := by omega
    have hread := digits?_padded (by decide) hlt []
    rwa [List.append_nil] at hread
  have hds : ∀ c ∈ padded 2 minutes, c.isDigit = true := fun _ => isDigit_of_mem_padded
  have hcolon := dropWhile_colon hds
  have hhour : hours < 10 ^ 2 := by omega
  simp [offsetDigits?, digits?_padded (by decide) hhour, hcolon, hminute, hhours, hminutes]

theorem offset?_offsetText {n : Int} (h : n.natAbs < 24 * 60) :
    offset? (Timestamp.offsetText n) = some n := by
  have hhours : n.natAbs / 60 < 24 := by omega
  have hminutes : n.natAbs % 60 < 60 := by omega
  have hdigits := offsetDigits?_append hhours hminutes
  rw [Nat.div_add_mod'] at hdigits
  unfold Timestamp.offsetText
  split
  · rename_i hnegative
    have hread : offset? ('-' :: (padded 2 (n.natAbs / 60) ++ ':' :: padded 2 (n.natAbs % 60)))
        = some (-(n.natAbs : Int)) := by
      rw [offset?, trimStart, List.dropWhile_cons_of_neg (by decide)]
      simp only [hdigits]
      rfl
    rw [List.cons_append, hread]
    congr 1
    omega
  · rename_i hpositive
    have hread : offset? ('+' :: (padded 2 (n.natAbs / 60) ++ ':' :: padded 2 (n.natAbs % 60)))
        = some (n.natAbs : Int) := by
      rw [offset?, trimStart, List.dropWhile_cons_of_neg (by decide)]
      simp only [hdigits]
      rfl
    rw [List.cons_append, hread]
    congr 1
    omega

theorem spellOutUtc_eq_self {cs : List Char} (h : 'Z' ∉ cs) : spellOutUtc cs = cs := by
  unfold spellOutUtc
  split
  · rename_i hlast
    exact absurd (List.mem_of_getLast? hlast) h
  · rfl

end Writing

/-! ## Whole timestamps -/

private theorem isCaseless_of_mem_fractionText {n : Nat} {c : Char} (h : c ∈ WallTime.fractionText n) :
    isCaseless c = true := by
  have hpadded {width k : Nat} (hc : c ∈ '.' :: padded width k) : isCaseless c = true := by
    rcases List.mem_cons.mp hc with rfl | hc
    · decide
    · exact isCaseless_of_isDigit (isDigit_of_mem_padded hc)
  unfold WallTime.fractionText at h
  split at h
  · cases h
  · split at h
    · exact hpadded h
    · split at h
      · exact hpadded h
      · exact hpadded h

theorem isCaseless_of_mem_text {t : Timestamp} {c : Char} (h : c ∈ t.text) :
    isCaseless c = true := by
  have hdigit {width n : Nat} (hc : c ∈ padded width n) : isCaseless c = true :=
    isCaseless_of_isDigit (isDigit_of_mem_padded hc)
  have hwall {t : WallTime} (hc : c ∈ t.text) : isCaseless c = true := by
    simp only [WallTime.text, List.mem_append, List.mem_cons] at hc
    rcases hc with (((((hc | rfl | hc) | rfl | hc) | rfl | hc) | rfl | hc) | rfl | hc) | hc
    all_goals first | exact hdigit hc | exact isCaseless_of_mem_fractionText hc | decide
  cases t with
  | naive wall => exact hwall h
  | aware wall offset =>
    simp only [Timestamp.text, Timestamp.offsetText, List.mem_append, List.mem_cons] at h
    rcases h with hc | (hsign | hc) | rfl | hc
    · exact hwall hc
    · rw [hsign]
      split <;> decide
    · exact hdigit hc
    · decide
    · exact hdigit hc

theorem Timestamp.exists_text_eq (t : Timestamp) :
    ∃ year rest, t.text = padded 4 year ++ '-' :: rest := by
  cases t with
  | naive wall =>
    simp only [Timestamp.text, WallTime.text, List.append_assoc, List.cons_append]
    exact ⟨_, _, rfl⟩
  | aware wall offset =>
    simp only [Timestamp.text, WallTime.text, List.append_assoc, List.cons_append]
    exact ⟨_, _, rfl⟩

/-- What a text is read as whose time of day is written in full. -/
theorem afterHour?_append {wall : WallTime} (h : wall.IsProper) {rest : List Char}
    (hzone : 'Z' ∉ ':' :: (padded 2 wall.minute ++ ':' :: (padded 2 wall.second
      ++ (WallTime.fractionText wall.nanosecond ++ rest))))
    (hrest : ∀ c ∈ rest.head?, c.isDigit = false ∧ c ≠ '.') :
    afterHour? wall.date wall.hour (':' :: (padded 2 wall.minute ++ ':' :: (padded 2 wall.second
      ++ (WallTime.fractionText wall.nanosecond ++ rest))))
      = if rest.isEmpty then some (.naive wall) else (offset? rest).map (.aware wall) := by
  have hminute : wall.minute < 10 ^ 2 := h.minute.trans (by decide)
  simp [afterHour?, spellOutUtc_eq_self hzone, afterHour, oneOrTwoDigits?_padded hminute,
    seconds?_append h.second h.nanosecond hrest, h.hour, h.minute]

theorem read?_wallText {wall : WallTime} (h : wall.IsProper) {rest : List Char}
    (hzone : 'Z' ∉ wall.text ++ rest) (hrest : ∀ c ∈ rest.head?, c.isDigit = false ∧ c ≠ '.') :
    Timestamp.read? (wall.text ++ rest)
      = if rest.isEmpty then some (.naive wall) else (offset? rest).map (.aware wall) := by
  have htail : ':' :: (padded 2 wall.minute ++ ':' :: (padded 2 wall.second
      ++ (WallTime.fractionText wall.nanosecond ++ rest))) <:+ wall.text ++ rest :=
    ⟨padded 4 wall.date.year ++ '-' :: padded 2 wall.date.month ++ '-' :: padded 2 wall.date.day
      ++ ' ' :: padded 2 wall.hour, by simp [WallTime.text]⟩
  have htext : wall.text ++ rest
      = padded 4 wall.date.year ++ '-' :: (padded 2 wall.date.month ++ '-' :: (padded 2 wall.date.day
        ++ ' ' :: (padded 2 wall.hour ++ ':' :: (padded 2 wall.minute ++ ':' :: (padded 2 wall.second
          ++ (WallTime.fractionText wall.nanosecond ++ rest)))))) := by
    simp [WallTime.text]
  have hhour : wall.hour < 10 ^ 2 := h.hour.trans (by decide)
  have hafter := afterHour?_append h (mt (htail.subset ·) hzone) hrest
  rw [htext]
  simp [Timestamp.read?, date?_append h.date, digits?_padded (by decide) hhour, hafter]

/-- **What is written for a timestamp is read as that timestamp.** -/
theorem read?_text {t : Timestamp} (h : t.IsProper) : Timestamp.read? t.text = some t := by
  have hzone : 'Z' ∉ t.text := fun hmem => absurd (isCaseless_of_mem_text hmem) (by decide)
  cases t with
  | naive wall =>
    rw [Timestamp.text] at hzone ⊢
    rw [← List.append_nil wall.text] at hzone ⊢
    exact read?_wallText h hzone (by simp)
  | aware wall offset =>
    rw [Timestamp.text] at hzone ⊢
    have hhead : ∀ c ∈ (Timestamp.offsetText offset).head?, c.isDigit = false ∧ c ≠ '.' := by
      intro c hc
      simp only [Timestamp.offsetText, List.head?_append, List.head?_cons, Option.some_or,
        Option.mem_def, Option.some.injEq] at hc
      subst hc
      split <;> decide
    rw [read?_wallText h.1 hzone hhead, offset?_offsetText h.2]
    rfl

end Roster.Time
