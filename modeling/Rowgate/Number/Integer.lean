import Rowgate.Text.Digit
import Rowgate.Text.Blank

/-!
# Integers as text

An integer is written in decimal digits with a leading minus sign if it is negative. Reading and
writing stop at a fixed number of digits, so that no request can make the program spend its time on
one number.
-/

namespace Rowgate

/-- The most decimal digits an integer may have when it is read from a text or written to one. -/
def digitLimit : Nat := 4300

/-- The decimal digits of a natural number, the highest first. -/
def digitsOf (n : Nat) : List Char := Nat.toDigits 10 n

/-- The number that a run of decimal digits stands for. -/
def ofDigits (ds : List Char) : Nat := Nat.ofDigitChars 10 ds 0

theorem ofDigits_digitsOf (n : Nat) : ofDigits (digitsOf n) = n :=
  Nat.ofDigitChars_toDigits (by omega) (by omega)

/-- How many decimal digits `n` has; zero has one. -/
def digitCount (n : Nat) : Nat := (digitsOf n).length

theorem digitCount_pos (n : Nat) : 0 < digitCount n := Nat.length_toDigits_pos

/-- Why an integer has no text, or a text no integer. -/
inductive IntegerFault
  /-- The integer has too many digits to be written. -/
  | tooLongToWrite
  /-- The text has too many digits, `count` of them. -/
  | tooLongToRead (count : Nat)
  /-- The text is no integer. -/
  | malformed
  deriving DecidableEq

def IntegerFault.message : IntegerFault → String
  | .tooLongToWrite =>
    "Exceeds the limit (4300 digits) for integer string conversion; " ++
      "use sys.set_int_max_str_digits() to increase the limit"
  | .tooLongToRead count =>
    "Exceeds the limit (4300 digits) for integer string conversion: value has " ++
      toString count ++ " digits; use sys.set_int_max_str_digits() to increase the limit"
  | .malformed => "invalid integer"

/-- The digits of an integer with its sign, whatever their number. -/
def signedDigits (i : Int) : List Char :=
  if i < 0 then '-' :: digitsOf i.natAbs else digitsOf i.natAbs

/-- The text of an integer that has no more digits than the limit. -/
def integerText (i : Int) : Except IntegerFault String :=
  if digitCount i.natAbs ≤ digitLimit then .ok (String.ofList (signedDigits i))
  else .error .tooLongToWrite

/-- The number of a run of digits within the limit, negated if `negative`. -/
def integerOfDigits (negative : Bool) (ds : List Char) : Except IntegerFault Int :=
  if digitLimit < ds.length then .error (.tooLongToRead ds.length)
  else .ok (if negative then -(ofDigits ds : Int) else ofDigits ds)

/-- A sign at the start of a text, if there is one, and what follows it. -/
def splitSign : List Char → Bool × List Char
  | '-' :: rest => (true, rest)
  | '+' :: rest => (false, rest)
  | rest => (false, rest)

/-- The digits of a run in which single underscores may stand between digits. -/
def groupedDigits? : List Char → Option (List Char)
  | [] => none
  | [c] => if c.isDigit then some [c] else none
  | c :: '_' :: rest => if c.isDigit then (groupedDigits? rest).map (c :: ·) else none
  | c :: rest => if c.isDigit then (groupedDigits? rest).map (c :: ·) else none

/-- A character of an integer text in its ASCII form: digits of any script become ASCII digits and
blanks outside ASCII become spaces. -/
def asciiForm (c : Char) : Char :=
  if c.toNat < 127 then c
  else if Text.isBlank c then ' '
  else
    match Text.digitValue? c with
    | some d => Char.ofNat ('0'.toNat + d)
    | none => '?'

/-- Reads an integer: blanks around it, a sign, and digits grouped by underscores. -/
def readInteger (cs : List Char) : Except IntegerFault Int :=
  let (negative, digits) := splitSign (Text.trimBoth Text.isAsciiBlank (cs.map asciiForm))
  match groupedDigits? digits with
  | some ds => integerOfDigits negative ds
  | none => .error .malformed

end Rowgate
