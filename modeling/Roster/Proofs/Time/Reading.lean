import Roster.Proofs.Number.Literal
import Roster.Time.Reading

/-!
# The parts of a timestamp

What each reader takes away from the front of a text: digits, blanks and the marks between them.
Only a fraction begins with a point, so the text of a timestamp has at most one
(`count_point_of_read?`). Every timestamp begins with a digit (`isDigit_of_read?`) and has a dash
(`mem_dash_of_read?`).
-/

namespace Roster.Time

open Roster.Number Roster.Text

variable {cs rest : List Char}

/-! ## Digits -/

theorem digits?_eq_some {n v : Nat} (h : digits? n cs = some (v, rest)) :
    ∃ ds, cs = ds ++ rest ∧ ds.length = n ∧ (∀ c ∈ ds, c.isDigit = true) ∧
      v = Nat.ofDigitChars 10 ds 0 := by
  unfold digits? at h
  simp only [Option.ite_none_right_eq_some, Bool.and_eq_true, beq_iff_eq, List.all_eq_true,
    Option.some.injEq, Prod.mk.injEq] at h
  obtain ⟨⟨hlen, hall⟩, rfl, rfl⟩ := h
  exact ⟨cs.take n, (List.take_append_drop n cs).symm, hlen, hall, rfl⟩

theorem oneOrTwoDigits?_eq_some {v : Nat} (h : oneOrTwoDigits? cs = some (v, rest)) :
    ∃ ds, trimStart cs = ds ++ rest ∧ (∀ c ∈ ds, c.isDigit = true) ∧
      v = Nat.ofDigitChars 10 ds 0 := by
  have hprefix : ((trimStart cs).take 2).takeWhile Char.isDigit <+: trimStart cs :=
    (List.takeWhile_prefix _).trans (List.take_prefix 2 _)
  have hdigits := List.all_eq_true.mp
    (List.all_takeWhile : (((trimStart cs).take 2).takeWhile Char.isDigit).all Char.isDigit = true)
  unfold oneOrTwoDigits? at h
  dsimp only at h
  split at h
  · cases h
  · simp only [Option.some.injEq, Prod.mk.injEq] at h
    obtain ⟨rfl, rfl⟩ := h
    exact ⟨_, (List.prefix_iff_eq_append.mp hprefix).symm, hdigits, rfl⟩

theorem isDigit_of_digits? {n v : Nat} {c : Char} (hn : n ≠ 0)
    (h : digits? n (c :: cs) = some (v, rest)) : c.isDigit = true := by
  obtain ⟨ds, hcs, hlen, hds, -⟩ := digits?_eq_some h
  cases ds with
  | nil => exact absurd hlen.symm hn
  | cons d ds =>
    obtain ⟨rfl, -⟩ := List.cons.inj hcs
    exact hds c List.mem_cons_self

/-- A timestamp begins with the first digit of the year. -/
theorem isDigit_of_read? {c : Char} {t : Timestamp} (h : Timestamp.read? (c :: cs) = some t) :
    c.isDigit = true := by
  simp only [Timestamp.read?, date?, Option.bind_eq_bind, Option.bind_eq_some_iff,
    Prod.exists] at h
  obtain ⟨_, _, ⟨_, _, hyear, -⟩, -⟩ := h
  exact isDigit_of_digits? (by decide) hyear

/-- A dash stands after the year. -/
theorem mem_dash_of_read? {t : Timestamp} (h : Timestamp.read? cs = some t) : '-' ∈ cs := by
  simp only [Timestamp.read?, date?, Option.bind_eq_bind, Option.bind_eq_some_iff,
    Prod.exists] at h
  obtain ⟨_, _, ⟨_, _, hyear, _, hdash, -⟩, -⟩ := h
  obtain ⟨ds, rfl, -, -, -⟩ := digits?_eq_some hyear
  rw [← List.isPrefixOf?_eq_some_iff_append_eq.mp hdash]
  simp

/-! ## Points -/

private theorem count_point_trimStart (cs : List Char) : (trimStart cs).count '.' = cs.count '.' :=
  count_dropWhile (by decide) cs

theorem count_point_of_digits? {n v : Nat} (h : digits? n cs = some (v, rest)) :
    cs.count '.' = rest.count '.' := by
  obtain ⟨ds, rfl, -, hds, -⟩ := digits?_eq_some h
  rw [List.count_append, count_point_of_digits hds, Nat.zero_add]

private theorem count_point_of_oneOrTwoDigits? {v : Nat} (h : oneOrTwoDigits? cs = some (v, rest)) :
    cs.count '.' = rest.count '.' := by
  obtain ⟨ds, hcs, hds, -⟩ := oneOrTwoDigits?_eq_some h
  rw [← count_point_trimStart, hcs, List.count_append, count_point_of_digits hds, Nat.zero_add]

private theorem count_point_of_dash (h : ['-'].isPrefixOf? cs = some rest) :
    cs.count '.' = rest.count '.' := by
  rw [← List.isPrefixOf?_eq_some_iff_append_eq.mp h]
  simp

theorem count_point_of_date? {date : Date} (h : date? cs = some (date, rest)) :
    cs.count '.' = rest.count '.' := by
  simp only [date?, Option.bind_eq_bind, Option.bind_eq_some_iff, Prod.exists] at h
  obtain ⟨_, _, hyear, _, hdash, _, _, hmonth, _, hdash', _, _, hday, h⟩ := h
  simp only [Option.ite_none_right_eq_some, Option.some.injEq, Prod.mk.injEq] at h
  obtain ⟨-, -, rfl⟩ := h
  rw [count_point_of_digits? hyear, count_point_of_dash hdash, count_point_of_digits? hmonth,
    count_point_of_dash hdash', count_point_of_digits? hday]

/-- A fraction has the one point that a timestamp may have. -/
private theorem count_point_of_fraction? {v : Nat} (h : fraction? cs = some (v, rest)) :
    cs.count '.' ≤ rest.count '.' + 1 := by
  unfold fraction? at h
  split at h
  · split at h
    · cases h
    · simp only [Option.some.injEq, Prod.mk.injEq] at h
      obtain ⟨-, rfl⟩ := h
      exact Nat.le_of_eq (by rw [List.count_cons_self, count_dropWhile (by decide)])
  · simp only [Option.some.injEq, Prod.mk.injEq] at h
    obtain ⟨-, rfl⟩ := h
    exact Nat.le_succ _

private theorem count_point_of_seconds? {second nanosecond : Nat}
    (h : seconds? cs = some (second, nanosecond, rest)) : cs.count '.' ≤ rest.count '.' + 1 := by
  unfold seconds? at h
  split at h
  · simp only [Option.bind_eq_bind, Option.bind_eq_some_iff, Prod.exists] at h
    obtain ⟨_, _, hsecond, _, _, hfraction, h⟩ := h
    simp only [Option.ite_none_right_eq_some, Option.some.injEq, Prod.mk.injEq] at h
    obtain ⟨-, -, -, rfl⟩ := h
    rw [List.count_cons_of_ne (by decide), count_point_of_oneOrTwoDigits? hsecond]
    exact count_point_of_fraction? hfraction
  · simp only [Option.some.injEq, Prod.mk.injEq] at h
    obtain ⟨-, -, rfl⟩ := h
    exact Nat.le_succ _

private theorem count_point_of_offsetDigits? {n : Nat} (h : offsetDigits? cs = some n) :
    cs.count '.' = 0 := by
  simp only [offsetDigits?, Option.bind_eq_bind, Option.bind_eq_some_iff, Prod.exists] at h
  obtain ⟨_, afterHours, hhours, _, last, hminutes, h⟩ := h
  simp only [Option.ite_none_right_eq_some, Bool.and_eq_true, List.isEmpty_iff] at h
  obtain ⟨⟨⟨rfl, -⟩, -⟩, -⟩ := h
  have hmarks := count_dropWhile (p := fun c => c == ':' || isBlank c)
    (by decide : ('.' == ':' || isBlank '.') = false) afterHours
  rw [count_point_of_digits? hhours, ← hmarks, count_point_of_digits? hminutes]
  rfl

theorem count_point_of_offset? {n : Int} (h : offset? cs = some n) : cs.count '.' = 0 := by
  rw [← count_point_trimStart]
  unfold offset? at h
  -- The three signs of an offset; anything else is none.
  split at h
  case h_4 => cases h
  all_goals
    rename_i heq
    obtain ⟨_, hdigits, -⟩ := Option.map_eq_some_iff.mp h
    rw [heq, List.count_cons_of_ne (by decide), count_point_of_offsetDigits? hdigits]

private theorem count_point_spellOutUtc (cs : List Char) :
    (spellOutUtc cs).count '.' = cs.count '.' := by
  unfold spellOutUtc
  split
  · rename_i hlast
    obtain ⟨ys, rfl⟩ := List.getLast?_eq_some_iff.mp hlast
    simp
  · rfl

private theorem count_point_afterHour (cs : List Char) : (afterHour cs).count '.' = cs.count '.' := by
  unfold afterHour
  split <;> simp

theorem count_point_of_afterHour? {date : Date} {hour : Nat} {t : Timestamp}
    (h : afterHour? date hour cs = some t) : cs.count '.' ≤ 1 := by
  simp only [afterHour?, Option.bind_eq_bind, Option.bind_eq_some_iff, Prod.exists] at h
  obtain ⟨_, _, hminute, _, _, last, hseconds, h⟩ := h
  have hlast : last.count '.' = 0 := by
    split at h
    · split at h
      · rename_i hempty
        rw [List.isEmpty_iff.mp hempty]
        rfl
      · obtain ⟨_, hoffset, -⟩ := Option.map_eq_some_iff.mp h
        exact count_point_of_offset? hoffset
    · cases h
  have hle := count_point_of_seconds? hseconds
  rw [← count_point_spellOutUtc, ← count_point_afterHour, count_point_of_oneOrTwoDigits? hminute]
  omega

/-- A timestamp has at most one point. -/
theorem count_point_of_read? {t : Timestamp} (h : Timestamp.read? cs = some t) :
    cs.count '.' ≤ 1 := by
  simp only [Timestamp.read?, Option.bind_eq_bind, Option.bind_eq_some_iff, Prod.exists] at h
  obtain ⟨_, afterDate, hdate, h⟩ := h
  rw [count_point_of_date? hdate]
  split at h
  · exact Nat.zero_le 1
  · rename_i separator afterSeparator
    split at h
    · rename_i hseparator
      simp only [Option.bind_eq_some_iff, Prod.exists] at h
      obtain ⟨_, _, hhour, h⟩ := h
      have hne : separator ≠ '.' := by
        rintro rfl
        exact absurd hseparator (by decide)
      rw [List.count_cons_of_ne hne, count_point_of_digits? hhour]
      exact count_point_of_afterHour? h
    · cases h

end Roster.Time
