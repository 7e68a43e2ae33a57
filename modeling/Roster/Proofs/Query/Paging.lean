import Roster.Proofs.Store.Index
import Roster.Query.Answer

/-!
# The pages of an answer

The answers to the pages of a request, put one after the other, are the answer without pages.

- **Windows** (`slice_ofPage`): as long as the items can be counted at all, the window of page
  `k + 1` holds what follows the first `k * limit` items, up to `limit` of them. The stop at the
  greatest size never shows.
- **The number of pages** (`pageCount_le_iff`): `n` pages are enough exactly for `n * limit` items.
- **One page** (`data_onPage`): the rows of a page are the window of the rows of the whole answer.
- **All pages** (`pages_partition`): the rows of the pages make up the rows of the whole answer.
-/

namespace Roster

/-! ## Windows -/

/-- A window within the items, in the arithmetic of all natural numbers. -/
theorem Window.ofPage_succ {total : Nat} (h : total ≤ greatestSize) (k limit : Nat) :
    Window.ofPage total (k + 1) limit = ⟨min (k * limit) total, min ((k + 1) * limit) total⟩ := by
  have hmul : (k + 1) * limit = k * limit + limit := Nat.succ_mul k limit
  simp only [ofPage, Nat.add_sub_cancel, hmul]
  generalize k * limit = start
  rw [if_neg (by simp), Window.mk.injEq]
  omega

/-- The items of page `k + 1` are the next ones after `k * limit` items. -/
theorem Window.slice_ofPage {α : Type} {items : List α} (h : items.length ≤ greatestSize)
    (k limit : Nat) :
    (Window.ofPage items.length (k + 1) limit).slice items
      = (items.drop (k * limit)).take limit := by
  have hmul : (k + 1) * limit = limit + k * limit := by rw [Nat.succ_mul, Nat.add_comm]
  rw [ofPage_succ h, slice, ← List.take_eq_take_min, hmul]
  by_cases hk : k * limit ≤ items.length
  · rw [Nat.min_eq_left hk, List.drop_take, Nat.add_sub_cancel]
  · have hlen : items.length ≤ k * limit := Nat.le_of_not_le hk
    rw [Nat.min_eq_right hlen, List.drop_eq_nil_of_le hlen, List.take_nil]
    exact List.drop_eq_nil_of_le (List.length_take_le' _ _)

/-- The first `n * limit` items, a window of `limit` items at a time. -/
private theorem flatMap_windows {α : Type} (items : List α) (limit n : Nat) :
    (List.range n).flatMap (fun k => (items.drop (k * limit)).take limit)
      = items.take (n * limit) := by
  induction n with
  | zero => simp
  | succ n ih =>
    rw [List.range_succ, List.flatMap_append, ih, List.flatMap_singleton, Nat.succ_mul,
      List.take_add]

/-! ## The number of pages -/

/-- So many pages are enough for so many items. -/
theorem pageCount_le_iff {limit : Nat} (h : 0 < limit) (total n : Nat) :
    pageCount total limit ≤ n ↔ total ≤ n * limit := by
  rw [pageCount, if_neg (by simp; omega), Nat.div_le_iff_le_mul_add_pred h, Nat.mul_comm]
  omega

/-- Pages and limits that can be counted take no product to the greatest size. -/
theorem mul_le_greatestSize {a b : Nat} (ha : a < UInt32.size) (hb : b < UInt32.size) :
    a * b ≤ greatestSize := by
  have hmul : a * b ≤ (UInt32.size - 1) * (UInt32.size - 1) :=
    Nat.mul_le_mul (Nat.le_sub_one_of_lt ha) (Nat.le_sub_one_of_lt hb)
  exact Nat.le_trans hmul (by decide)

/-- Items that fill a countable number of pages can be counted themselves. -/
theorem le_greatestSize_of_pageCount {total limit : Nat} (h : 0 < limit)
    (hlimit : limit < UInt32.size) (hpages : pageCount total limit < UInt32.size) :
    total ≤ greatestSize :=
  Nat.le_trans ((pageCount_le_iff h _ _).mp (Nat.le_refl _)) (mul_le_greatestSize hpages hlimit)

/-! ## One page -/

namespace Request

/-- The request for one page of what is asked for. -/
def onPage (q : Request) (page limit : UInt32) : Request :=
  { q with page := some page, limit := some limit }

/-- The request for all of what is asked for. -/
def withoutPage (q : Request) : Request :=
  { q with page := none, limit := none }

end Request

/-- Without a page every selected record has its row. -/
theorem data_withoutPage (records : List Record) (q : Request) :
    (answer records q.withoutPage).data
      = (q.withoutPage.select records).map fun r => r.project q.chosen? q.shape := rfl

private theorem total_withoutPage (records : List Record) (q : Request) :
    (answer records q.withoutPage).total = (q.withoutPage.select records).length := rfl

private theorem length_data_withoutPage (records : List Record) (q : Request) :
    (answer records q.withoutPage).data.length = (answer records q.withoutPage).total := by
  rw [data_withoutPage, List.length_map, total_withoutPage]

theorem total_onPage (records : List Record) (q : Request) (page limit : UInt32) :
    (answer records (q.onPage page limit)).total = (answer records q.withoutPage).total := rfl

/-- The pagination of a page counts the pages of the whole answer. -/
theorem pages_onPage (records : List Record) (q : Request) (page limit : UInt32) :
    (answer records (q.onPage page limit)).pagination.map Pagination.pages
      = some (pageCount (answer records q.withoutPage).total limit.toNat) := rfl

/-- The rows of a page are a window of the rows of the whole answer. -/
theorem data_onPage {records : List Record} {q : Request} {page limit : UInt32} {k : Nat}
    (hpage : page.toNat = k + 1) (h : (answer records q.withoutPage).total ≤ greatestSize) :
    (answer records (q.onPage page limit)).data
      = ((answer records q.withoutPage).data.drop (k * limit.toNat)).take limit.toNat := by
  have hdata : (answer records (q.onPage page limit)).data
      = ((Window.ofPage (q.withoutPage.select records).length page.toNat limit.toNat).slice
          (q.withoutPage.select records)).map fun r => r.project q.chosen? q.shape := rfl
  rw [total_withoutPage] at h
  rw [hdata, hpage, Window.slice_ofPage h, data_withoutPage, List.map_take, List.map_drop]

theorem length_data_onPage {records : List Record} {q : Request} {page limit : UInt32} {k : Nat}
    (hpage : page.toNat = k + 1) (h : (answer records q.withoutPage).total ≤ greatestSize) :
    (answer records (q.onPage page limit)).data.length
      = min limit.toNat ((answer records q.withoutPage).total - k * limit.toNat) := by
  rw [data_onPage hpage h, List.length_take, List.length_drop, length_data_withoutPage]

/-! ## All pages -/

/-- The rows of the pages up to the last one are the rows of the whole answer. -/
theorem flatMap_data_onPage {records : List Record} {q : Request} {limit : UInt32}
    (hl : 0 < limit.toNat)
    (hp : pageCount (answer records q.withoutPage).total limit.toNat < UInt32.size) :
    (List.range' 1 (pageCount (answer records q.withoutPage).total limit.toNat)).flatMap
        (fun page => (answer records (q.onPage (.ofNat page) limit)).data)
      = (answer records q.withoutPage).data := by
  have hsize := le_greatestSize_of_pageCount hl limit.toNat_lt hp
  have henough := (pageCount_le_iff hl (answer records q.withoutPage).total _).mp (Nat.le_refl _)
  generalize pageCount (answer records q.withoutPage).total limit.toNat = pages at hp henough ⊢
  -- No window up to the last page is cut short by the greatest size.
  have hpage (k : Nat) (hk : k ∈ List.range pages) :
      (answer records (q.onPage (.ofNat (1 + k)) limit)).data
        = ((answer records q.withoutPage).data.drop (k * limit.toNat)).take limit.toNat := by
    have hlt : k < pages := List.mem_range.mp hk
    refine data_onPage ?_ hsize
    rw [UInt32.toNat_ofNat_of_lt' (by omega), Nat.add_comm]
  rw [List.range'_eq_map_range, List.flatMap_map, List.flatMap_def, List.map_congr_left hpage,
    ← List.flatMap_def, flatMap_windows]
  exact List.take_of_length_le (by rw [length_data_withoutPage]; exact henough)

/-- **The pages of an answer partition it.** If the pages can be numbered, the rows of the pages one
after the other are the rows of the answer without pages, and every page reports the total of that
answer. Every page but the last is full, the last one has at least one row, and there are no rows
on the pages after it. -/
theorem pages_partition (store : Store) (q : Request) {limit : UInt32} (hl : 1 ≤ limit) :
    ∃ pages,
      (answer store.records (q.onPage 1 limit)).pagination.map Pagination.pages = some pages ∧
      (pages < UInt32.size →
        ((List.range' 1 pages).flatMap
            (fun page => (answer store.records (q.onPage (.ofNat page) limit)).data)
          = (answer store.records q.withoutPage).data) ∧
        ∀ page : UInt32, 1 ≤ page →
          (answer store.records (q.onPage page limit)).total
              = (answer store.records q.withoutPage).total ∧
          (page.toNat < pages →
            (answer store.records (q.onPage page limit)).data.length = limit.toNat) ∧
          (page.toNat = pages →
            1 ≤ (answer store.records (q.onPage page limit)).data.length ∧
              (answer store.records (q.onPage page limit)).data.length ≤ limit.toNat) ∧
          (pages < page.toNat → (answer store.records (q.onPage page limit)).data = [])) := by
  have hl' : 0 < limit.toNat := UInt32.le_iff_toNat_le.mp hl
  refine ⟨_, pages_onPage store.records q 1 limit, fun hp => ⟨flatMap_data_onPage hl' hp, ?_⟩⟩
  intro page h1
  obtain ⟨k, hk⟩ : ∃ k, page.toNat = k + 1 :=
    ⟨page.toNat - 1, (Nat.sub_add_cancel (UInt32.le_iff_toNat_le.mp h1)).symm⟩
  have hsize := le_greatestSize_of_pageCount hl' limit.toNat_lt hp
  have hlen : (answer store.records (q.onPage page limit)).data.length = _ :=
    length_data_onPage hk hsize
  have hcount := pageCount_le_iff hl' (answer store.records q.withoutPage).total
  have hsucc : (k + 1) * limit.toNat = k * limit.toNat + limit.toNat := Nat.succ_mul _ _
  rw [hk]
  refine ⟨total_onPage .., fun hlt => ?_, fun heq => ?_, fun hgt => ?_⟩
  · -- Page `k + 1` is not enough, so the items go beyond it.
    have := mt (hcount (k + 1)).mpr (Nat.not_le_of_lt hlt)
    omega
  · have := mt (hcount k).mpr (by omega)
    omega
  · have := (hcount k).mp (by omega)
    exact List.eq_nil_of_length_eq_zero (by omega)

/-- Seven records, four on a page: the rows of two pages are the rows of the whole answer. -/
theorem pages_partition_samples :
    ∃ store, Store.ofRecords sampleRecords "samples" = .ok store ∧ (1 : UInt32) ≤ 4 ∧
      (List.range' 1 2).flatMap (fun page => (answer store.records
          (({ filters := some "id:>3" } : Request).onPage (.ofNat page) 4)).data)
        = (answer store.records ({ filters := some "id:>3" } : Request).withoutPage).data := by
  obtain ⟨store, hstore, hrecords⟩ := Store.exists_ofRecords_samples "samples"
  obtain ⟨pages, hpages, hall⟩ :=
    @pages_partition store { filters := some "id:>3" } 4 (by decide)
  have htwo : (answer sampleRecords
      (({ filters := some "id:>3" } : Request).onPage 1 4)).pagination.map Pagination.pages
        = some 2 := by decide
  rw [hrecords, htwo, Option.some.injEq] at hpages
  subst hpages
  exact ⟨store, hstore, by decide, (hall (by decide)).1⟩

end Roster
