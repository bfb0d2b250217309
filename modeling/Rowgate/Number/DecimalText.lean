import Rowgate.Number.Decimal
import Rowgate.Text.Blank

/-!
# Decimals as text

A decimal is written with all its digits: in plain notation while the exponent is not positive and
the leading digit stands no further right than the sixth place after the point, and otherwise with
one digit before the point and an exponent. `Decimal.plainText` writes every finite decimal without
an exponent.

Reading takes blanks around the number, digits of any script, underscores anywhere, and the words
for the infinities and the not-a-numbers in any case.
-/

namespace Rowgate.Decimal

/-- `n` zeros. -/
def zeros (n : Nat) : List Char := List.replicate n '0'

/-- Digits with a point after the first `place` of them, filled with zeros on either side. -/
def withPoint (digits : List Char) (place : Int) : List Char :=
  if place ≤ 0 then '0' :: '.' :: (zeros (-place).toNat ++ digits)
  else if (digits.length : Int) ≤ place then digits ++ zeros (place - digits.length).toNat
  else digits.take place.toNat ++ '.' :: digits.drop place.toNat

/-- A minus sign if `negative`. -/
def sign (negative : Bool) : List Char := if negative then ['-'] else []

/-- The text of a finite decimal without an exponent. -/
def plainDigits (negative : Bool) (c : Nat) (e : Int) : List Char :=
  sign negative ++ withPoint (digitsOf c) (digitCount c + e)

/-- The text of a finite decimal, with an exponent where the plain text would hide its digits. -/
def finiteDigits (negative : Bool) (c : Nat) (e : Int) : List Char :=
  let place : Int := digitCount c + e
  if e ≤ 0 ∧ -6 < place then plainDigits negative c e
  else
    let power := place - 1
    let mark := if power < 0 then '-' else '+'
    sign negative ++ withPoint (digitsOf c) 1 ++ 'E' :: mark :: digitsOf power.natAbs

def text : Decimal → String
  | .finite n c e => String.ofList (finiteDigits n c e)
  | .infinite n => String.ofList (sign n ++ "Infinity".toList)
  | .nan n s p =>
    String.ofList (sign n ++ (if s then "sNaN".toList else "NaN".toList) ++
      if p = 0 then [] else digitsOf p)

/-! ## Reading -/

/-- The characters of a decimal in ASCII: underscores vanish, and a digit of any script becomes an
ASCII digit. Another character outside ASCII makes the text unreadable. -/
def asciiDigits? : List Char → Option (List Char)
  | [] => some []
  | '_' :: rest => asciiDigits? rest
  | c :: rest =>
    if c.toNat < 128 then (asciiDigits? rest).map (c :: ·)
    else
      match Text.digitValue? c with
      | some d => (asciiDigits? rest).map (Char.ofNat ('0'.toNat + d) :: ·)
      | none => none

/-- The exponent part of a number, after which nothing may follow; 0 if there is none. -/
def readExponent? : List Char → Option Int
  | [] => some 0
  | mark :: rest =>
    if mark.toLower = 'e' then
      let (negative, digits) := splitSign rest
      if !digits.isEmpty && digits.all Char.isDigit then
        some (if negative then -(ofDigits digits : Int) else ofDigits digits)
      else none
    else none

/-- The digits after a point, and what follows them; none if there is no point. -/
def splitFraction : List Char → List Char × List Char
  | '.' :: rest => (rest.takeWhile Char.isDigit, rest.dropWhile Char.isDigit)
  | rest => ([], rest)

/-- A finite decimal without its sign: digits with a point among them, and an exponent. -/
def readFinite? (negative : Bool) (cs : List Char) : Option Decimal :=
  let whole := cs.takeWhile Char.isDigit
  let (fraction, rest) := splitFraction (cs.dropWhile Char.isDigit)
  if whole.isEmpty && fraction.isEmpty then none
  else
    (readExponent? rest).bind fun e =>
      let c := ofDigits (whole ++ fraction)
      let e := e - fraction.length
      if inRange c e then some (.finite negative c e) else none

/-- The diagnostic digits after the word for a not-a-number. -/
def readPayload? (negative signaling : Bool) (cs : List Char) : Option Decimal :=
  if cs.all Char.isDigit then some (.nan negative signaling (ofDigits cs)) else none

def readUnsigned? (negative : Bool) (cs : List Char) : Option Decimal :=
  match cs.map Char.toLower with
  | ['i', 'n', 'f'] => some (.infinite negative)
  | ['i', 'n', 'f', 'i', 'n', 'i', 't', 'y'] => some (.infinite negative)
  | 'n' :: 'a' :: 'n' :: payload => readPayload? negative false payload
  | 's' :: 'n' :: 'a' :: 'n' :: payload => readPayload? negative true payload
  | _ => readFinite? negative cs

/-- Reads a decimal; `none` if the text is no decimal or its exponent is out of range. -/
def read? (cs : List Char) : Option Decimal :=
  (asciiDigits? (Text.trim cs)).bind fun cs =>
    let (negative, rest) := splitSign cs
    readUnsigned? negative rest

/-- `read?` on strings. -/
def ofText? (s : String) : Option Decimal := read? s.toList

end Rowgate.Decimal
