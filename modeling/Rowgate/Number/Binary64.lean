import Rowgate.Number.Decimal

/-!
# Binary floating point numbers of 64 bits

A number is a sign, a significand below `2 ^ 53` and a power of two; zero keeps its sign. Every
finite one is a decimal exactly, so comparison with integers and decimals goes through `toDecimal`.
Reading a decimal text, and adding two numbers, rounds to the nearest number, of two nearest ones to
the even one.
-/

namespace Rowgate

inductive Binary64
  /-- `significand · 2 ^ exponent`, negated if `negative`. -/
  | finite (negative : Bool) (significand : Nat) (exponent : Int)
  | infinite (negative : Bool)
  | nan
  deriving DecidableEq

namespace Binary64

/-- The smallest power of two of a significand. -/
def minExponent : Int := -1074

/-- The largest power of two of a significand. -/
def maxExponent : Int := 971

/-- The nearest integer to `num / den`, of two nearest ones the even one. -/
def roundHalfEven (num den : Nat) : Nat :=
  let q := num / den
  let r := num % den
  if 2 * r < den then q
  else if den < 2 * r then q + 1
  else if q % 2 = 0 then q else q + 1

/-- The quotient `num / den` in units of `2 ^ exponent`, rounded. -/
def significandAt (num den : Nat) (exponent : Int) : Nat :=
  if 0 ≤ exponent then roundHalfEven num (den * Nat.pow 2 exponent.toNat)
  else roundHalfEven (num * Nat.pow 2 (-exponent).toNat) den

/-- The number nearest to the positive quotient `num / den`. -/
def ofRatio (negative : Bool) (num den : Nat) : Binary64 :=
  let guess : Int := (num.log2 : Int) - den.log2 - 53
  let first := max guess minExponent
  -- the quotient has 53 or 54 binary digits at `first`, or fewer if it is subnormal
  let exponent := if significandAt num den first < Nat.pow 2 53 then first else first + 1
  let significand := significandAt num den exponent
  let (significand, exponent) :=
    if significand < Nat.pow 2 53 then (significand, exponent) else (significand / 2, exponent + 1)
  if maxExponent < exponent then .infinite negative else .finite negative significand exponent

/-- The number nearest to a finite decimal. Far outside the range of exponents the answer is an
infinity or zero without any arithmetic. -/
def ofScientific (negative : Bool) (c : Nat) (e : Int) : Binary64 :=
  if c = 0 then .finite negative 0 minExponent
  else if 400 < Decimal.leadingPower c e then .infinite negative
  else if Decimal.leadingPower c e < -400 then .finite negative 0 minExponent
  else if 0 ≤ e then ofRatio negative (c * Nat.pow 10 e.toNat) 1
  else ofRatio negative c (Nat.pow 10 (-e).toNat)

def ofDecimal : Decimal → Binary64
  | .finite n c e => ofScientific n c e
  | .infinite n => .infinite n
  | .nan .. => .nan

/-- The decimal of exactly the same value; a negative power of two is a power of five over a power
of ten. -/
def toDecimal : Binary64 → Decimal
  | .finite n m q =>
    if 0 ≤ q then .finite n (m * Nat.pow 2 q.toNat) 0
    else .finite n (m * Nat.pow 5 (-q).toNat) q
  | .infinite n => .infinite n
  | .nan => .nan false false 0

/-- The number nearest to an integer, unless the integer is too large. -/
def ofInt? (i : Int) : Option Binary64 :=
  match ofScientific (decide (i < 0)) i.natAbs 0 with
  | .finite n m q => some (.finite n m q)
  | _ => none

/-- A significand in units of a smaller power of two. -/
def inUnits (negative : Bool) (m : Nat) (q unit : Int) : Int :=
  let n : Nat := m * Nat.pow 2 (q - unit).toNat
  if negative then -n else n

/-- The number nearest to the sum of two numbers. A sum of zero is negative only if both are. -/
def add : Binary64 → Binary64 → Binary64
  | .nan, _ => .nan
  | _, .nan => .nan
  | .infinite n₁, .infinite n₂ => if n₁ = n₂ then .infinite n₁ else .nan
  | .infinite n, .finite .. => .infinite n
  | .finite .., .infinite n => .infinite n
  | .finite n₁ m₁ q₁, .finite n₂ m₂ q₂ =>
    let unit := min q₁ q₂
    let sum := inUnits n₁ m₁ q₁ unit + inUnits n₂ m₂ q₂ unit
    if sum = 0 then .finite (n₁ && n₂) 0 minExponent
    else if 0 ≤ unit then ofRatio (decide (sum < 0)) (sum.natAbs * Nat.pow 2 unit.toNat) 1
    else ofRatio (decide (sum < 0)) sum.natAbs (Nat.pow 2 (-unit).toNat)

def neg : Binary64 → Binary64
  | .finite n m q => .finite (!n) m q
  | .infinite n => .infinite (!n)
  | .nan => .nan

/-- The number nearest to the difference of two numbers. -/
def sub (x y : Binary64) : Binary64 := x.add y.neg

end Binary64

end Rowgate
