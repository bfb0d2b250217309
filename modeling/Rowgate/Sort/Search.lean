/-!
# Searching for a boundary

Some places from the first to the last satisfy a test and the others do not; the search finds how
many do. It halves the interval that is left, or starts at a place that is likely to be near the
boundary and first goes away from it in strides that double. The test may fail, so it matters which
places are tested, and in which order.
-/

namespace Rowgate.Sort

variable {ε : Type}

/-- The first place from `low` to `high` that does not satisfy the test, by halving. -/
def halve (test : Nat → Except ε Bool) (low high : Nat) : Except ε Nat :=
  if low < high then do
    let middle := low + (high - low) / 2
    if ← test middle then halve test (middle + 1) high else halve test low middle
  else .ok low
termination_by high - low
decreasing_by all_goals omega

/-- The last distance that satisfies the test and the first one that does not, among distances that
double; no distance is larger than `bound`. -/
def stride (test : Nat → Except ε Bool) (bound last next : Nat) : Except ε (Nat × Nat) :=
  if next < bound then do
    if ← test next then stride test bound next (2 * next + 1) else .ok (last, next)
  else .ok (last, bound)
termination_by bound - next
decreasing_by omega

/-- How many of `count` places satisfy the test, found in strides from a place `near` the
boundary. -/
def gallop (test : Nat → Except ε Bool) (count near : Nat) : Except ε Nat := do
  if ← test near then
    let (last, next) ← stride (fun d => test (near + d)) (count - near) 0 1
    halve test (near + last + 1) (near + next)
  else
    let (last, next) ← stride (fun d => (test (near - d)).map (!·)) (near + 1) 0 1
    halve test (near + 1 - next) (near - last)

end Rowgate.Sort
