import Rowgate.Number.Binary64
import Rowgate.Number.DecimalText

/-!
# Readings of a clock

A clock tells the seconds as an integer or as a floating point number. Comparisons with a reading
are exact. Sums and differences with a floating point number in them are rounded, and an integer
that is too large for one has none.
-/

namespace Rowgate

/-- What a clock shows, in seconds. -/
inductive Reading
  | whole (seconds : Int)
  | float (seconds : Binary64)
  deriving DecidableEq

namespace Reading

def toDecimal : Reading → Decimal
  | .whole i => .ofInt i
  | .float f => f.toDecimal

/-- The nearest floating point number, unless an integer is too large. -/
def toBinary? : Reading → Option Binary64
  | .whole i => Binary64.ofInt? i
  | .float f => some f

/-- Whether a time has come. What is no number never comes. -/
def hasReached (now : Reading) (time : Binary64) : Bool :=
  match time.toDecimal.compareValue now.toDecimal with
  | some .lt => true
  | some .eq => true
  | _ => false

/-- The time that lies some seconds after a reading. -/
def after? (now : Reading) (seconds : Binary64) : Option Binary64 :=
  now.toBinary?.map (·.add seconds)

/-- The seconds from an earlier reading to a later one. -/
def since? (now earlier : Reading) : Option Reading :=
  match now, earlier with
  | .whole i, .whole j => some (.whole (i - j))
  | _, _ => now.toBinary?.bind fun x => earlier.toBinary?.map fun y => .float (x.sub y)

/-- The digits of a finite decimal with three places, rounded to the nearest one. -/
def thousandths (negative : Bool) (c : Nat) (e : Int) : List Char :=
  let n :=
    if -3 ≤ e then c * Nat.pow 10 (e + 3).toNat
    else Binary64.roundHalfEven c (Nat.pow 10 (-e - 3).toNat)
  Decimal.plainDigits negative n (-3)

/-- The nearest floating point number with three places. -/
def text (r : Reading) : String :=
  match r.toBinary?.map Binary64.toDecimal with
  | some (.finite n c e) => String.ofList (thousandths n c e)
  | some (.nan ..) => "nan"
  | some (.infinite true) => "-inf"
  | _ => "inf"

end Reading

end Rowgate
