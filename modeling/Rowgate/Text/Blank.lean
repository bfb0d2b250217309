import Rowgate.Text.Range

/-!
# Blanks

The characters that are trimmed from the ends of a text. They are the blanks of Unicode together
with the four separator controls, so the set is wider than the blanks of ASCII.
-/

namespace Rowgate.Text

def blanks : Ranges := [
  (0x9, 0xd), (0x1c, 0x20), (0x85, 0x85), (0xa0, 0xa0), (0x1680, 0x1680), (0x2000, 0x200a),
  (0x2028, 0x2029), (0x202f, 0x202f), (0x205f, 0x205f), (0x3000, 0x3000)]

/-- Whether `c` is a blank. -/
def isBlank (c : Char) : Bool := blanks.holds c.toNat

/-- Whether `c` is a blank of Unicode; the separator controls are not. -/
def isUnicodeBlank (c : Char) : Bool :=
  isBlank c && !(decide (0x1c ≤ c.toNat) && decide (c.toNat ≤ 0x1f))

/-- The text without the characters at its ends that satisfy `p`. -/
def trimBoth (p : Char → Bool) (cs : List Char) : List Char :=
  ((cs.dropWhile p).reverse.dropWhile p).reverse

/-- The text without the blanks at its ends. -/
def trim (cs : List Char) : List Char := trimBoth isBlank cs

/-- `trim` on strings. -/
def strip (s : String) : String := String.ofList (trim s.toList)

/-- The blanks of ASCII that may surround a number written in bytes. -/
def isAsciiBlank (c : Char) : Bool := Ranges.holds [(0x9, 0xd), (0x20, 0x20)] c.toNat

end Rowgate.Text
