import Rowgate.Number.Integer

/-!
# Decimal numbers

A decimal keeps the digits it was written with: `1.50` and `1.5` are equal in value and differ in
text. A finite decimal is a sign, a coefficient and an exponent of ten. Besides the finite ones
there are the two infinities and the quiet and signalling not-a-numbers.

Comparison is by exact value. It looks at the place of the leading digit first, and only if that
agrees are the coefficients brought to one exponent, so the exponents may be as far apart as they
like.
-/

namespace Rowgate

inductive Decimal
  /-- `coefficient · 10 ^ exponent`, negated if `negative`. -/
  | finite (negative : Bool) (coefficient : Nat) (exponent : Int)
  | infinite (negative : Bool)
  /-- A not-a-number with its diagnostic digits; 0 stands for none. -/
  | nan (negative signaling : Bool) (payload : Nat)
  deriving DecidableEq

namespace Decimal

def ofInt (i : Int) : Decimal := .finite (decide (i < 0)) i.natAbs 0

/-- Whether the decimal is a number and no infinity. -/
def isFinite : Decimal → Bool
  | .finite .. => true
  | _ => false

/-- Whether the decimal is a signalling not-a-number, which refuses every comparison. -/
def isSignaling : Decimal → Bool
  | .nan _ signaling _ => signaling
  | _ => false

/-- The largest power of ten that the leading digit of a decimal may stand at. -/
def maxExponent : Int := 999999999999999999

def minExponent : Int := -1999999999999999997

/-- The power of ten that the leading digit stands at. -/
def leadingPower (coefficient : Nat) (exponent : Int) : Int := digitCount coefficient + exponent - 1

/-- Whether the exponent lies in the range of the decimals. -/
def inRange (coefficient : Nat) (exponent : Int) : Bool :=
  decide (minExponent ≤ exponent) &&
    decide ((if coefficient = 0 then exponent else leadingPower coefficient exponent) ≤ maxExponent)

/-! ## Integers among the decimals -/

def isIntegral : Decimal → Bool
  | .finite _ c e =>
    decide (0 ≤ e) || c == 0 || (decide (-e < digitCount c) && c % Nat.pow 10 (-e).toNat == 0)
  | _ => false

/-- A finite decimal cut to an integer, toward zero. -/
def truncate (negative : Bool) (c : Nat) (e : Int) : Int :=
  let whole : Nat :=
    if 0 ≤ e then c * Nat.pow 10 e.toNat
    else if (digitCount c : Int) ≤ -e then 0
    else c / Nat.pow 10 (-e).toNat
  if negative then -whole else whole

/-! ## Order -/

/-- Compares `c₁ · 10 ^ e₁` with `c₂ · 10 ^ e₂`. -/
def compareMagnitude (c₁ : Nat) (e₁ : Int) (c₂ : Nat) (e₂ : Int) : Ordering :=
  if c₁ = 0 ∨ c₂ = 0 then compare c₁ c₂
  else if leadingPower c₁ e₁ ≠ leadingPower c₂ e₂ then
    compare (leadingPower c₁ e₁) (leadingPower c₂ e₂)
  else
    let low := min e₁ e₂
    compare (c₁ * Nat.pow 10 (e₁ - low).toNat) (c₂ * Nat.pow 10 (e₂ - low).toNat)

/-- Compares two decimals by value; a not-a-number has no place in the order. -/
def compareValue : Decimal → Decimal → Option Ordering
  | .nan .., _ => none
  | _, .nan .. => none
  | .infinite n₁, .infinite n₂ => some (compare n₂ n₁)
  | .infinite n, .finite .. => some (if n then .lt else .gt)
  | .finite .., .infinite n => some (if n then .gt else .lt)
  | .finite n₁ c₁ e₁, .finite n₂ c₂ e₂ =>
    some <|
      if c₁ = 0 ∧ c₂ = 0 then .eq
      else if c₁ = 0 then (if n₂ then .gt else .lt)
      else if c₂ = 0 then (if n₁ then .lt else .gt)
      else
        match n₁, n₂ with
        | false, false => compareMagnitude c₁ e₁ c₂ e₂
        | true, true => compareMagnitude c₂ e₂ c₁ e₁
        | true, false => .lt
        | false, true => .gt

end Decimal

end Rowgate
