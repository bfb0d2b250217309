/-!
# Sorting by insertion

The sorted list by a comparison that may fail: every item is put behind all items before it that it
is not less than, so items of which neither is less keep their order.
-/

namespace Rowgate.Sort

variable {α ε : Type}

/-- Puts an item in its place in a list that is sorted downwards: before the first item that it is
not less than. -/
def insertDown (isLess : α → α → Except ε Bool) (x : α) : List α → Except ε (List α)
  | [] => .ok [x]
  | y :: ys => do
    if ← isLess x y then
      let ys ← insertDown isLess x ys
      .ok (y :: ys)
    else .ok (x :: y :: ys)

/-- Puts the items of a list in their places in a list that is sorted downwards. -/
def insertAll (isLess : α → α → Except ε Bool) (sorted : List α) : List α → Except ε (List α)
  | [] => .ok sorted
  | x :: xs => do
    let sorted ← insertDown isLess x sorted
    insertAll isLess sorted xs

/-- A list in ascending order; items of which neither is less keep their order. -/
def insertion (isLess : α → α → Except ε Bool) (xs : List α) : Except ε (List α) :=
  (insertAll isLess [] xs).map List.reverse

end Rowgate.Sort
