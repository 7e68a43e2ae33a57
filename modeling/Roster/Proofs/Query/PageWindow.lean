import Mathlib.Algebra.Order.Floor.Semiring
import Mathlib.Data.Rat.Floor
import Roster.Proofs.Query.Paging

/-!
# The window of a page, exactly

Windows are computed with sizes that stop at the greatest one. `IsPage` says what the position of a
page and its window are in the arithmetic of all numbers, and `pageWindow?_isPage` that they are so
for every total, page and limit.

- **No stop** (`Window.ofPage_eq_exact`): a page and a limit of 32 bits never reach the greatest
  size, so the window of a page is the exact one.
- **The number of pages** (`pageCount_eq_ceil`): the total divided by the limit, rounded up.
- **The next page** (`lt_pageCount_iff`): there is one as long as items are left, and then it has
  some of them (`Window.not_isEmpty_exact_succ_iff`).
-/

namespace Roster

/-! ## Windows -/

namespace Window

/-- The window of a page in the arithmetic of all numbers. -/
def exact (total page limit : Nat) : Window :=
  ⟨min ((page - 1) * limit) total, min (page * limit) total⟩

/-- Whether there are no items in a window. -/
def IsEmpty (w : Window) : Prop :=
  w.stop ≤ w.start

theorem exact_within (total page limit : Nat) :
    (exact total page limit).start ≤ (exact total page limit).stop ∧
      (exact total page limit).stop ≤ total := by
  have hmul : (page - 1) * limit ≤ page * limit := Nat.mul_le_mul_right limit (Nat.sub_le page 1)
  simp only [exact]
  omega

private theorem isEmpty_exact_zero (total limit : Nat) : (exact total 0 limit).IsEmpty := by
  simp [IsEmpty, exact]

/-- The window after a page has items exactly if the pages up to this one leave some. -/
theorem not_isEmpty_exact_succ_iff {total page limit : Nat} :
    ¬ (exact total (page + 1) limit).IsEmpty ↔ 0 < limit ∧ page * limit < total := by
  have hmul : (page + 1) * limit = page * limit + limit := Nat.succ_mul page limit
  simp only [IsEmpty, exact, Nat.add_sub_cancel, hmul]
  omega

end Window

/-- The window of a page is the exact one, whatever the total is. -/
theorem Window.ofPage_eq_exact (total : Nat) (page limit : UInt32) :
    Window.ofPage total page.toNat limit.toNat = .exact total page.toNat limit.toNat := by
  have hsize := mul_le_greatestSize page.toNat_lt limit.toNat_lt
  cases hpage : page.toNat with
  | zero => simp [ofPage, exact]
  | succ k =>
    have hmul : (k + 1) * limit.toNat = k * limit.toNat + limit.toNat := Nat.succ_mul k _
    rw [hpage, hmul] at hsize
    simp only [ofPage, exact, Nat.add_sub_cancel, hmul]
    rw [if_neg (by simp), Window.mk.injEq]
    omega

/-! ## Pages -/

private theorem pageCount_zero (total : Nat) : pageCount total 0 = 0 := rfl

/-- The pages are as many as the total divided by the limit, rounded up. -/
theorem pageCount_eq_ceil {limit : Nat} (h : 0 < limit) (total : Nat) :
    pageCount total limit = ⌈(total : ℚ) / limit⌉₊ := by
  have hlimit : (0 : ℚ) < limit := Nat.cast_pos.mpr h
  refine eq_of_forall_ge_iff fun n => ?_
  rw [pageCount_le_iff h, Nat.ceil_le, div_le_iff₀ hlimit]
  norm_cast

/-- A page is followed by another one exactly if the pages up to it leave items. -/
theorem lt_pageCount_iff {total page limit : Nat} :
    page < pageCount total limit ↔ 0 < limit ∧ page * limit < total := by
  rcases Nat.eq_zero_or_pos limit with rfl | h
  · simp [pageCount_zero]
  · rw [← Nat.not_le, pageCount_le_iff h, Nat.not_le, and_iff_right h]

/-- The position and the window of a page, given both the page and the limit. -/
theorem pageWindow?_some (total : Nat) (page limit : UInt32) :
    ∃ position, pageWindow? total (some page) (some limit)
        = some (position, .exact total page.toNat limit.toNat) ∧
      (position.page = page ∧ position.limit = limit ∧ position.total = total) ∧
      position.pages = pageCount total limit.toNat ∧
      (position.hasPrevious = true ↔ 1 < page.toNat) := by
  rw [← Window.ofPage_eq_exact]
  exact ⟨_, rfl, ⟨rfl, rfl, rfl⟩, rfl, decide_eq_true_iff⟩

/-- The position of a page says that there is a next one if the pages up to it leave items. -/
theorem hasNext_iff {total : Nat} {page limit : UInt32} {position : Pagination} {window : Window}
    (h : pageWindow? total (some page) (some limit) = some (position, window)) :
    position.hasNext = true ↔
      1 ≤ page.toNat ∧ 0 < limit.toNat ∧ page.toNat * limit.toNat < total := by
  obtain ⟨rfl, -⟩ := Prod.mk.inj (Option.some.inj h)
  simp only [Window.ofPage_eq_exact, Window.exact, Bool.and_eq_true, decide_eq_true_eq]
  omega

/-- What the position of a page and its window are in the arithmetic of all numbers. -/
structure IsPage (total : Nat) (page limit : UInt32) (position : Pagination) (window : Window) :
    Prop where
  /-- The position is that of this page among these items. -/
  reported : position.page = page ∧ position.limit = limit ∧ position.total = total
  /-- The window lies within the items. -/
  within : window.start ≤ window.stop ∧ window.stop ≤ total
  /-- Pages are counted from one, and each one has the next items up to the limit. -/
  window_of_pos : 1 ≤ page →
    window = ⟨min ((page.toNat - 1) * limit.toNat) total, min (page.toNat * limit.toNat) total⟩
  /-- The page zero has no items. -/
  window_of_zero : page = 0 → window.IsEmpty
  /-- The number of pages is the total divided by the limit, rounded up. -/
  pages_of_pos : 1 ≤ limit → position.pages = ⌈(total : ℚ) / limit.toNat⌉₊
  /-- Without room for items there is no page. -/
  pages_of_zero : limit = 0 → position.pages = 0
  /-- Every page from the first one on has a next one, unless it is the last one or after it. -/
  hasNext : position.hasNext = true ↔ 1 ≤ page ∧ page.toNat < position.pages
  /-- In other words, there are items in the window after its own. -/
  hasNext_iff_window : position.hasNext = true ↔
    1 ≤ page ∧ ¬ (Window.exact total (page.toNat + 1) limit.toNat).IsEmpty
  /-- Every page after the first one has a previous one. -/
  hasPrevious : position.hasPrevious = true ↔ 1 < page

/-- **Pages are cut out exactly.** A page has a position and a window if both the page and the limit
are given. The two are then those of the arithmetic of all numbers, for every total, the greatest
one included. -/
theorem pageWindow?_isPage (total : Nat) :
    (∀ page limit, (pageWindow? total page limit).isSome ↔ page.isSome ∧ limit.isSome) ∧
    ∀ page limit, ∃ position window,
      pageWindow? total (some page) (some limit) = some (position, window) ∧
      IsPage total page limit position window := by
  refine ⟨fun page limit => ?_, fun page limit => ?_⟩
  · cases page <;> cases limit <;> simp [pageWindow?]
  · obtain ⟨position, hposition, hreported, hpages, hprevious⟩ := pageWindow?_some total page limit
    have hnext := hasNext_iff hposition
    exact ⟨position, _, hposition,
      { reported := hreported
        within := Window.exact_within total page.toNat limit.toNat
        window_of_pos := fun _ => rfl
        window_of_zero := by
          rintro rfl
          exact Window.isEmpty_exact_zero total limit.toNat
        pages_of_pos := fun h => by
          rw [hpages, pageCount_eq_ceil (UInt32.le_iff_toNat_le.mp h)]
        pages_of_zero := by
          rintro rfl
          exact hpages
        hasNext := by
          rw [hnext, hpages, lt_pageCount_iff, UInt32.le_iff_toNat_le, UInt32.toNat_one]
        hasNext_iff_window := by
          rw [hnext, Window.not_isEmpty_exact_succ_iff, UInt32.le_iff_toNat_le, UInt32.toNat_one]
        hasPrevious := by
          rw [hprevious, UInt32.lt_iff_toNat_lt, UInt32.toNat_one] }⟩

/-- The last page that can be asked for, of as many items as there can be. -/
example : (pageWindow? greatestSize (some 4294967295) (some 4294967295)).map
    (fun page => (page.1.hasNext, page.2)) =
      some (true, ⟨18446744060824649730, 18446744065119617025⟩) := by
  decide

end Roster
