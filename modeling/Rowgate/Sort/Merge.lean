import Rowgate.Sort.Search

/-!
# Merging two runs

Two runs that follow each other are merged from the side on which the shorter one lies. Items are
taken one by one while neither run wins often in a row; where one does, the number of items that it
wins by is searched for and all of them are taken at once. How many wins in a row are needed is the
patience of a merge, which falls while searching pays and rises when it does not.

A `Front` holds both runs in the direction of the merge: from the right they are reversed. The run
that was shorter is the kept one; when one item of it is left, that item comes after all others.
-/

namespace Rowgate.Sort

variable {α ε : Type}

/-- The side from which two runs are merged. -/
inductive Side
  | left
  | right
  deriving DecidableEq

/-- What a merge has taken, the last item first, and what is left of the first and of the second
run. -/
structure Front (α : Type) where
  taken : List α
  first : List α
  second : List α

namespace Front

/-- What is left, in order, once nothing has to be compared any more. -/
def rest? (side : Side) (f : Front α) : Option (List α) :=
  match side, f.first, f.second with
  | _, [], second => some second
  | _, first, [] => some first
  | .left, [x], second => some (second ++ [x])
  | .right, first, [y] => some (first ++ [y])
  | _, _, _ => none

/-- Whether nothing has to be compared any more. -/
def finished (side : Side) (f : Front α) : Bool := (f.rest? side).isSome

def all (side : Side) (f : Front α) : List α :=
  let items := f.taken.reverse ++ (f.rest? side).getD (f.first ++ f.second)
  match side with
  | .left => items
  | .right => items.reverse

def takeFirst (count : Nat) (f : Front α) : Front α :=
  ⟨(f.first.take count).reverse ++ f.taken, f.first.drop count, f.second⟩

def takeSecond (count : Nat) (f : Front α) : Front α :=
  ⟨(f.second.take count).reverse ++ f.taken, f.first, f.second.drop count⟩

end Front

/-- A test of the item at a place; there is none beyond the end. -/
def testAt (test : α → Except ε Bool) (xs : List α) (i : Nat) : Except ε Bool :=
  match xs[i]? with
  | some x => test x
  | none => .ok false

/-- How many items of a run come next, where `before` tells which items stand before the boundary in
the order of the run. -/
def winners (side : Side) (before : α → Except ε Bool) (xs : List α) : Except ε Nat :=
  match side with
  | .left => gallop (testAt before xs) xs.length 0
  | .right => do
    let kept ← gallop (testAt before xs.reverse) xs.length (xs.length - 1)
    .ok (xs.length - kept)

/-- Takes the items of the first run that come before the next one of the second. -/
def leapFirst (isLess : α → α → Except ε Bool) (side : Side) (f : Front α) :
    Except ε (Nat × Front α) :=
  match f.finished side, f.second with
  | false, y :: _ => do
    let count ← winners side (fun x => (isLess y x).map (!·)) f.first
    .ok (count, f.takeFirst count)
  | _, _ => .ok (0, f)

/-- Takes the items of the second run that come before the next one of the first. -/
def leapSecond (isLess : α → α → Except ε Bool) (side : Side) (f : Front α) :
    Except ε (Nat × Front α) :=
  match f.finished side, f.first with
  | false, x :: _ => do
    let count ← winners side (fun y => isLess y x) f.second
    .ok (count, f.takeSecond count)
  | _, _ => .ok (0, f)

/-- Goes on unless nothing has to be compared any more. -/
def Front.unlessFinished (side : Side) (step : Front α → Front α) (f : Front α) : Front α :=
  if f.finished side then f else step f

/-- How many wins in a row make searching worth while. -/
def usualPatience : Nat := 7

/-- How a merge goes on: item by item, with the wins in a row of both runs, or by searching. -/
inductive Pace
  | steps (first second : Nat)
  | leaps

/-- Merges what is left, and answers the patience that is left. Every round takes an item, so as
much fuel as there are items is always enough. -/
def mergeFront (isLess : α → α → Except ε Bool) (side : Side) :
    (fuel : Nat) → (patience : Nat) → Pace → Front α → Except ε (List α × Nat)
  | 0, patience, _, f => .ok (f.all side, patience)
  | fuel + 1, patience, pace, f =>
    match f.finished side, pace, f.first, f.second with
    | false, .steps firstWins secondWins, x :: _, y :: _ => do
      let less ← isLess y x
      if less == (side == .left) then
        let f := f.takeSecond 1
        if !f.finished side && patience ≤ secondWins + 1 then
          mergeFront isLess side fuel (patience + 1) .leaps f
        else mergeFront isLess side fuel patience (.steps 0 (secondWins + 1)) f
      else
        let f := f.takeFirst 1
        if !f.finished side && patience ≤ firstWins + 1 then
          mergeFront isLess side fuel (patience + 1) .leaps f
        else mergeFront isLess side fuel patience (.steps (firstWins + 1) 0) f
    | false, .leaps, _, _ => do
      let patience := if 1 < patience then patience - 1 else patience
      let (firstCount, f) ← leapFirst isLess side f
      let f := f.unlessFinished side (Front.takeSecond 1)
      let (secondCount, f) ← leapSecond isLess side f
      let f := f.unlessFinished side (Front.takeFirst 1)
      if f.finished side || usualPatience ≤ firstCount || usualPatience ≤ secondCount then
        mergeFront isLess side fuel patience .leaps f
      else mergeFront isLess side fuel (patience + 1) (.steps 0 0) f
    | _, _, _, _ => .ok (f.all side, patience)

/-- Merges two runs, of which the first ends after the start of the second and the second starts
before the end of the first. The first item from the left is one of the second run, and the first
one from the right one of the first. -/
def mergeOverlap (isLess : α → α → Except ε Bool) (patience : Nat) (xs ys : List α) :
    Except ε (List α × Nat) :=
  let fuel := xs.length + ys.length
  if xs.length ≤ ys.length then
    mergeFront isLess .left fuel patience (.steps 0 0) (Front.takeSecond 1 ⟨[], xs, ys⟩)
  else
    mergeFront isLess .right fuel patience (.steps 0 0)
      (Front.takeFirst 1 ⟨[], xs.reverse, ys.reverse⟩)

/-- Merges two runs that follow each other. What stands before the second run, or after the first
one, already has its place. -/
def merge (isLess : α → α → Except ε Bool) (patience : Nat) (xs ys : List α) :
    Except ε (List α × Nat) :=
  match ys with
  | [] => .ok (xs, patience)
  | y :: _ => do
    let before ← gallop (testAt (fun x => (isLess y x).map (!·)) xs) xs.length 0
    match (xs.drop before).getLast? with
    | none => .ok (xs ++ ys, patience)
    | some x =>
      let within ← gallop (testAt (fun y => isLess y x) ys) ys.length (ys.length - 1)
      if within = 0 then .ok (xs ++ ys, patience)
      else
        let (merged, patience) ← mergeOverlap isLess patience (xs.drop before) (ys.take within)
        .ok (xs.take before ++ merged ++ ys.drop within, patience)

end Rowgate.Sort
