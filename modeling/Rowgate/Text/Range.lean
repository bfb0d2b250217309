/-!
# Ranges of code points

A property of characters is kept as the ascending list of the ranges of code points that have it,
ends included.
-/

namespace Rowgate.Text

/-- Ranges of code points, both ends included. -/
abbrev Ranges := List (Nat × Nat)

def Ranges.holds (ranges : Ranges) (code : Nat) : Bool :=
  ranges.any fun range => decide (range.1 ≤ code) && decide (code ≤ range.2)

theorem Ranges.holds_iff {ranges : Ranges} {code : Nat} :
    ranges.holds code = true ↔ ∃ range ∈ ranges, range.1 ≤ code ∧ code ≤ range.2 := by
  simp [Ranges.holds]

end Rowgate.Text
