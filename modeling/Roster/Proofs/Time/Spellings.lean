import Roster.Proofs.Time.Patterns

/-!
# Spellings of timestamps

Texts with the same shape and the same normal form denote the same timestamp, or both none
(`read?_eq_of_normalForm_eq`). So it does not matter whether the offset zero is written as `Z`, and
whether an hour is followed by the minutes `00` or by no minutes; nor does the separator between the day
and the hour matter (`read?_spellings`).
-/

namespace Roster.Time

/-! ## Same normal form -/

theorem read?_eq_of_normalForm_eq {cs other : List Char} (hshape : hasShape cs = hasShape other)
    (hform : normalForm cs = normalForm other) : Timestamp.read? cs = Timestamp.read? other := by
  rw [read?_eq_byPatterns?, read?_eq_byPatterns?, Timestamp.byPatterns?, Timestamp.byPatterns?, hshape,
    hform]

/-! ## The offset zero -/

section Foreign

variable {tests : List (Char → Bool)} {c : Char} {cs : List Char}

/-- A character that passes no test adds nothing to what stands before it. -/
private theorem beginsWith_append_cons (h : ∀ test ∈ tests, test c = false) (cs rest : List Char) :
    beginsWith tests (cs ++ c :: rest) = beginsWith tests cs := by
  induction tests generalizing cs with
  | nil => rfl
  | cons test tests ih =>
    obtain ⟨htest, htests⟩ := List.forall_mem_cons.mp h
    cases cs with
    | nil => simp [beginsWith, htest]
    | cons d cs => rw [List.cons_append, beginsWith, beginsWith, ih htests]

/-- Before a character that stands in no day and no hour there have to be both. -/
theorem hasShape_append_cons (h : ∀ test ∈ dayPlaces ++ hourPlaces, test c = false)
    (cs rest : List Char) :
    hasShape (cs ++ c :: rest) = beginsWith (dayPlaces ++ hourPlaces) cs := by
  have hday : ((cs ++ c :: rest).length == 10 && beginsWith dayPlaces (cs ++ c :: rest)) = false := by
    rw [beginsWith_append_cons fun test htest => h test (List.mem_append_left _ htest)]
    refine Bool.eq_false_iff.mpr fun hboth => ?_
    obtain ⟨hlength, hplaces⟩ := Bool.and_eq_true_iff.mp hboth
    have hle : 10 ≤ cs.length := length_le_of_beginsWith hplaces
    rw [beq_iff_eq, List.length_append, List.length_cons] at hlength
    omega
  rw [hasShape, hday, Bool.false_or, beginsWith_append_cons h]

end Foreign

/-! ## The minutes zero -/

private theorem head?_spellOutUtc_ne {cs : List Char} (h : cs.head? ≠ some ':') :
    (spellOutUtc cs).head? ≠ some ':' := by
  unfold spellOutUtc
  split
  · rename_i hlast
    obtain ⟨stem, rfl⟩ := List.getLast?_eq_some_iff.mp hlast
    rw [List.dropLast_concat]
    cases stem with
    | nil => decide
    | cons c stem => exact h
  · exact h

/-- Without a colon after the hour the minutes are read as if they were written. -/
theorem afterHour_minutes {cs : List Char} (h : cs.head? ≠ some ':') :
    afterHour (spellOutUtc cs) = afterHour (spellOutUtc (':' :: '0' :: '0' :: cs)) := by
  have hstart : 'Z' ∉ [':', '0', '0'] := by decide
  have hwritten : spellOutUtc (':' :: '0' :: '0' :: cs) = ':' :: '0' :: '0' :: spellOutUtc cs :=
    spellOutUtc_append hstart cs
  have hhead := head?_spellOutUtc_ne h
  rw [hwritten, afterHour, afterHour]
  rintro rest heq
  rw [heq] at hhead
  exact hhead rfl

/-! ## Spellings -/

/-- **Different spellings denote the same timestamp.** A final `Z` is the offset zero, whatever stands
before it. After a day, `T` separates an hour as a space does, whatever follows; and an hour that no colon
follows has the minutes zero. Either spelling may denote no timestamp, and then the other one denotes
none. -/
theorem read?_spellings :
    (∀ cs : List Char,
      Timestamp.read? (cs ++ ['Z']) = Timestamp.read? (cs ++ ['+', '0', '0', ':', '0', '0'])) ∧
    (∀ (d : DayText) (cs : List Char),
      Timestamp.read? (d.text ++ 'T' :: cs) = Timestamp.read? (d.text ++ ' ' :: cs)) ∧
    ∀ (d : DayText) (separator : Char) (hour : Digits 2) (cs : List Char),
      separator = 'T' ∨ separator = ' ' → cs.head? ≠ some ':' →
        Timestamp.read? (d.text ++ separator :: (hour.chars ++ cs))
          = Timestamp.read? (d.text ++ separator :: (hour.chars ++ ':' :: '0' :: '0' :: cs)) := by
  refine ⟨fun cs => ?_, fun d cs => ?_, fun d separator hour cs hseparator hcolon => ?_⟩
  · refine read?_eq_of_normalForm_eq ?_ ?_
    · rw [hasShape_append_cons (by decide), hasShape_append_cons (by decide)]
    · simp [normalForm, spellOutUtc]
  · rw [read?_text_cons d (.inl rfl), read?_text_cons d (.inr rfl)]
  · have hshape (rest : List Char) :
        hasShape (d.text ++ separator :: (hour.chars ++ rest)) = true :=
      hasShape_iff.mpr (.inr ⟨d, separator, hour, rest, hseparator, rfl⟩)
    refine read?_eq_of_normalForm_eq ((hshape _).trans (hshape _).symm) ?_
    have hform := normalForm_text_cons d hseparator hour (':' :: '0' :: '0' :: cs)
    rw [normalForm_text_cons d hseparator, hform, afterHour_minutes hcolon]

/-- The day `2024-02-29`. -/
def leapDay : DayText :=
  ⟨⟨['2', '0', '2', '4'], rfl, List.all_eq_true.mp (by decide)⟩,
    ⟨['0', '2'], rfl, List.all_eq_true.mp (by decide)⟩,
    ⟨['2', '9'], rfl, List.all_eq_true.mp (by decide)⟩⟩

/-- An hour of a leap day with a `Z` right after it. -/
theorem read?_spellings_leapDay :
    let evening := Timestamp.aware ⟨⟨2024, 2, 29⟩, 21, 0, 0, 0⟩ 0
    let hour : Digits 2 := ⟨['2', '1'], rfl, List.all_eq_true.mp (by decide)⟩
    ('T' = 'T' ∨ 'T' = ' ') ∧ ['Z'].head? ≠ some ':' ∧
      Timestamp.read? (leapDay.text ++ 'T' :: (hour.chars ++ ['Z'])) = some evening ∧
      Timestamp.read? (leapDay.text ++ 'T' :: (hour.chars ++ [':', '0', '0', 'Z'])) = some evening := by
  intro evening hour
  have hread : Timestamp.read? (leapDay.text ++ 'T' :: (hour.chars ++ ['Z'])) = some evening := by decide
  obtain ⟨-, -, hminutes⟩ := read?_spellings
  have hsame := hminutes leapDay 'T' hour ['Z'] (.inl rfl) (by decide)
  exact ⟨.inl rfl, by decide, hread, hsame ▸ hread⟩

end Roster.Time
