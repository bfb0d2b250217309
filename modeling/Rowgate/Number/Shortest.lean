import Rowgate.Number.Binary64
import Rowgate.Number.DecimalText

/-!
# The shortest decimal of a floating point number

A floating point number is written with the fewest digits that read back as the same number. The
reals that round to it form an interval, whose ends belong to it exactly when the significand is
even. For one digit, two digits and so on the two neighbours of the value on the grid of that many
digits are tried; the first grid with a neighbour in the interval wins, and of two neighbours the
nearer.

The notation is positional while the point stands neither too far before the digits nor behind the
sixteenth one, and scientific otherwise. How far is too far, and how many digits an exponent has at
least, is a matter of style.
-/

namespace Rowgate.Binary64

/-- A positive real as a quotient of naturals. -/
structure Ratio where
  num : Nat
  den : Nat

/-- `m · 2 ^ q` as a quotient. -/
def Ratio.ofBinary (m : Nat) (q : Int) : Ratio :=
  if 0 ≤ q then ⟨m * Nat.pow 2 q.toNat, 1⟩ else ⟨m, Nat.pow 2 (-q).toNat⟩

/-- `d · 10 ^ k` as a quotient. -/
def Ratio.ofDecimal (d : Nat) (k : Int) : Ratio :=
  if 0 ≤ k then ⟨d * Nat.pow 10 k.toNat, 1⟩ else ⟨d, Nat.pow 10 (-k).toNat⟩

/-- Compares two quotients by cross multiplication. -/
def Ratio.compare (x y : Ratio) : Ordering := Ord.compare (x.num * y.den) (y.num * x.den)

/-- The power of ten at the leading digit of a quotient. -/
def Ratio.power (x : Ratio) : Int :=
  let p : Int := (digitCount x.num : Int) - digitCount x.den
  if x.compare (.ofDecimal 1 p) = .lt then p - 1 else p

/-- How often `10 ^ k` goes into a quotient. -/
def Ratio.divPower (x : Ratio) (k : Int) : Nat :=
  if 0 ≤ k then x.num / (x.den * Nat.pow 10 k.toNat)
  else x.num * Nat.pow 10 (-k).toNat / x.den

/-- The reals that round to a number: the value, both ends, and whether the ends belong to it. -/
structure Interval where
  value : Ratio
  low : Ratio
  high : Ratio
  closed : Bool

/-- The interval of `m · 2 ^ q`; below a power of two the neighbour is half as far away. -/
def Interval.of (m : Nat) (q : Int) : Interval :=
  let low := if m = Nat.pow 2 52 ∧ minExponent < q then 4 * m - 1 else 4 * m - 2
  ⟨.ofBinary (4 * m) (q - 2), .ofBinary low (q - 2), .ofBinary (4 * m + 2) (q - 2), m % 2 == 0⟩

def Interval.has (i : Interval) (x : Ratio) : Bool :=
  if i.closed then x.compare i.low != .lt && x.compare i.high != .gt
  else x.compare i.low == .gt && x.compare i.high == .lt

/-- The grid neighbour of the value in the interval, at the power `k`: the nearer one if both are,
the even one if both are equally near. -/
def Interval.neighbour? (i : Interval) (k : Int) : Option Nat :=
  let d := i.value.divPower k
  match i.has (.ofDecimal d k), i.has (.ofDecimal (d + 1) k) with
  | false, false => none
  | true, false => some d
  | false, true => some (d + 1)
  | true, true =>
    -- the midpoint between the neighbours
    match i.value.compare (.ofDecimal (10 * d + 5) (k - 1)) with
    | .lt => some d
    | .gt => some (d + 1)
    | .eq => some (if d % 2 = 0 then d else d + 1)

/-- The first grid, from the coarsest on, that has a neighbour in the interval. -/
def Interval.firstGrid (i : Interval) (k : Int) : (grids : Nat) → Nat × Int
  | 0 => (i.value.divPower k, k)
  | grids + 1 =>
    match i.neighbour? k with
    | some d => (d, k)
    | none => i.firstGrid (k - 1) grids

/-- The digits of the shortest decimal in the interval and its power of ten; seventeen digits are
always enough. -/
def shortest (m : Nat) (q : Int) : Nat × Int :=
  let i := Interval.of m q
  i.firstGrid i.value.power 17

/-- Digits with a point, and with a zero after it if nothing else follows. -/
def positional (digits : List Char) (place : Int) : List Char :=
  let cs := Decimal.withPoint digits place
  if (digits.length : Int) ≤ place then cs ++ ['.', '0'] else cs

/-- What is a matter of style: how many zeros at most stand between the point and the digits, and
how many digits an exponent has at least. -/
structure Style where
  zeros : Nat
  exponentWidth : Nat

/-- The usual style, `0.0001` and `1e-05`. -/
def Style.usual : Style := ⟨3, 2⟩

def exponentText (style : Style) (power : Int) : List Char :=
  let digits := digitsOf power.natAbs
  'e' :: (if power < 0 then '-' else '+') ::
    (List.replicate (style.exponentWidth - digits.length) '0' ++ digits)

/-- The text of `m · 2 ^ q`. -/
def finiteText (style : Style) (negative : Bool) (m : Nat) (q : Int) : List Char :=
  if m = 0 then Decimal.sign negative ++ ['0', '.', '0']
  else
    let (d, k) := shortest m q
    let digits := digitsOf d
    let place : Int := digits.length + k
    Decimal.sign negative ++
      if -(style.zeros : Int) ≤ place ∧ place ≤ 16 then positional digits place
      else
        let significant := (digits.reverse.dropWhile (· == '0')).reverse
        Decimal.withPoint significant 1 ++ exponentText style (place - 1)

def text : Binary64 → String
  | .finite n m q => String.ofList (finiteText .usual n m q)
  | .infinite n => if n then "-inf" else "inf"
  | .nan => "nan"

/-- Reads a floating point number from a decimal text. -/
def ofText? (s : String) : Option Binary64 := (Decimal.ofText? s).map ofDecimal

end Rowgate.Binary64
