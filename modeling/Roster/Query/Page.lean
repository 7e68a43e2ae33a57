/-!
# Pages

`pageWindow?` says which part of a row of `total` items is a given page, and how many pages there
are. Sizes are at most `greatestSize`, and a product or a sum beyond it stops there.
-/

namespace Roster

/-- The greatest size, of 64 bits. -/
def greatestSize : Nat := UInt64.size - 1

/-- The position of a page among all pages. -/
structure Pagination where
  page : UInt32
  limit : UInt32
  total : Nat
  pages : Nat
  hasNext : Bool
  hasPrevious : Bool
  deriving Repr, DecidableEq

/-- The part of a row of items from one index up to another. -/
structure Window where
  start : Nat
  stop : Nat
  deriving Repr, DecidableEq

/-- The items of a window. -/
def Window.slice {α : Type} (w : Window) (items : List α) : List α :=
  (items.take w.stop).drop w.start

/-- The number of pages with `limit` items that `total` items fill; none if there is no limit. -/
def pageCount (total limit : Nat) : Nat :=
  if limit == 0 then 0 else (total + (limit - 1)) / limit

/-- The window of a page. The page zero has no items. -/
def Window.ofPage (total page limit : Nat) : Window :=
  if page == 0 then ⟨0, 0⟩
  else
    let start := min (min ((page - 1) * limit) greatestSize) total
    ⟨start, min (min (start + limit) greatestSize) total⟩

/-- The position of a page and its window, if both the page and the limit are given. -/
def pageWindow? (total : Nat) (page limit : Option UInt32) : Option (Pagination × Window) := do
  let page ← page
  let limit ← limit
  let window := Window.ofPage total page.toNat limit.toNat
  return ({
    page, limit, total
    pages := pageCount total limit.toNat
    hasNext := window.stop < total && 0 < limit.toNat && 0 < page.toNat
    hasPrevious := 1 < page.toNat }, window)

end Roster
