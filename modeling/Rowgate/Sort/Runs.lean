import Rowgate.Sort.Insertion
import Rowgate.Sort.Merge

/-!
# Sorting by runs

A list is cut into runs, which are ascending or strictly descending and are made longer where they
are short, and neighbouring runs are merged so that a merge joins runs of about one length. Which
runs are merged when follows from their places: the power of the boundary between two runs is how
often the list has to be halved until a cut falls between their middles, and boundaries of higher
power are merged first.

Of this sort only the comparisons count, in the order in which it makes them: if some of them fail,
the first one tells why. The sorted list itself does not depend on the way, so `sortBy` takes it
from the sort by insertion.
-/

namespace Rowgate.Sort

variable {α ε : Type}

/-! ## Runs -/

/-- Goes on with a run while the next item is less than the last one, or is not, as `descending`
says. Answers the run in reverse and what is left. -/
def runFrom (isLess : α → α → Except ε Bool) (descending : Bool) (run : List α) (last : α) :
    List α → Except ε (List α × List α)
  | [] => .ok (run, [])
  | x :: xs => do
    if (← isLess x last) == descending then runFrom isLess descending (x :: run) x xs
    else .ok (run, x :: xs)

/-- The run at the start of a list, in ascending order, and what is left. -/
def nextRun (isLess : α → α → Except ε Bool) : List α → Except ε (List α × List α)
  | [] => .ok ([], [])
  | [x] => .ok ([x], [])
  | x :: y :: xs => do
    let descending ← isLess y x
    let (run, rest) ← runFrom isLess descending [y, x] y xs
    .ok (if descending then run else run.reverse, rest)

/-- Makes a run longer by some items, each put in its place by halving. -/
def extend (isLess : α → α → Except ε Bool) (run : List α) : List α → Except ε (List α)
  | [] => .ok run
  | x :: xs => do
    let place ← halve (testAt (fun y => (isLess x y).map (!·)) run) 0 run.length
    extend isLess (run.take place ++ x :: run.drop place) xs

/-- The first six bits of a length, one more if `carry` or any other bit is set. -/
def leadingBits (carry length : Nat) : Nat :=
  if length < 64 then length + carry else leadingBits (max carry (length % 2)) (length / 2)
termination_by length
decreasing_by omega

/-- The length that a run must have at least in a list of some length, which is all of a short
list. -/
def leastLength (length : Nat) : Nat := leadingBits 0 length

/-! ## Merging runs -/

/-- A run, its place in the list, and the power of the boundary after it. -/
structure Run (α : Type) where
  start : Nat
  items : List α
  power : Nat

/-- How often `whole` has to be halved until a cut falls between two places; both are given twice as
large as they are. Every halving doubles the distance of the places, so no more are needed than
`whole` itself. -/
def powerBetween (whole : Nat) : (fuel : Nat) → (a b : Nat) → Nat
  | 0, _, _ => 1
  | fuel + 1, a, b =>
    if whole ≤ a then powerBetween whole fuel (2 * (a - whole)) (2 * (b - whole)) + 1
    else if whole ≤ b then 1
    else powerBetween whole fuel (2 * a) (2 * b) + 1

/-- The power of the boundary between a run and the next one, which has `count` items. -/
def Run.powerBefore (r : Run α) (whole count : Nat) : Nat :=
  let middle := 2 * r.start + r.items.length
  powerBetween whole whole middle (middle + r.items.length + count)

/-- Merges a run with the run after it. -/
def Run.join (isLess : α → α → Except ε Bool) (patience : Nat) (r next : Run α) :
    Except ε (Run α × Nat) := do
  let (items, patience) ← merge isLess patience r.items next.items
  .ok (⟨r.start, items, r.power⟩, patience)

/-- Merges the last runs, the last one first, across boundaries of a power higher than `power`. -/
def mergeAbove (isLess : α → α → Except ε Bool) (power patience : Nat) (last : Run α) :
    List (Run α) → Except ε (List (Run α) × Nat)
  | [] => .ok ([{ last with power }], patience)
  | r :: rs =>
    if power < r.power then do
      let (joined, patience) ← r.join isLess patience last
      mergeAbove isLess power patience joined rs
    else .ok ({ last with power } :: r :: rs, patience)

/-- Merges all runs, the last one first; of three the middle one goes with the shorter
neighbour. -/
def mergeAll (isLess : α → α → Except ε Bool) (patience : Nat) :
    List (Run α) → Except ε (List α)
  | [] => .ok []
  | [r] => .ok r.items
  | [r, s] => do
    let (joined, _) ← s.join isLess patience r
    .ok joined.items
  | r :: s :: t :: rs => do
    if t.items.length < r.items.length then
      let (joined, patience) ← t.join isLess patience s
      mergeAll isLess patience (r :: joined :: rs)
    else
      let (joined, patience) ← s.join isLess patience r
      mergeAll isLess patience (joined :: t :: rs)
termination_by rs => rs.length

/-- Cuts what is left of a list of `whole` items into runs and merges them. -/
def mergeRuns (isLess : α → α → Except ε Bool) (whole : Nat) :
    (fuel : Nat) → (patience : Nat) → List (Run α) → List α → Except ε (List α)
  | 0, patience, runs, _ => mergeAll isLess patience runs
  | _, patience, runs, [] => mergeAll isLess patience runs
  | fuel + 1, patience, runs, x :: xs => do
    let (run, rest) ← nextRun isLess (x :: xs)
    let more := leastLength whole - run.length
    let run ← extend isLess run (rest.take more)
    let next : Run α := ⟨whole - (x :: xs).length, run, 0⟩
    let (runs, patience) ← match runs with
      | [] => .ok ([], patience)
      | last :: runs =>
        mergeAbove isLess (last.powerBefore whole run.length) patience last runs
    mergeRuns isLess whole fuel patience (next :: runs) (rest.drop more)

def byRuns (isLess : α → α → Except ε Bool) (xs : List α) : Except ε (List α) :=
  mergeRuns isLess xs.length xs.length usualPatience [] xs

/-! ## Sorting -/

/-- A list in ascending order; items of which neither is less keep their order. If comparisons fail,
it is the first one of the sort by runs that tells why. -/
def sortBy (isLess : α → α → Except ε Bool) (xs : List α) : Except ε (List α) :=
  match byRuns isLess xs with
  | .ok _ => insertion isLess xs
  | .error e => .error e

end Rowgate.Sort
