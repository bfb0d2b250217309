import Rowgate.Text.CaseTable

/-!
# Small letters

`lower` writes a text in small letters. Every capital has one small form, two apart: a dotted
capital I becomes two characters, and a capital sigma becomes the final sigma at the end of a word,
that is, after a cased character and not before one, where characters invisible to casing are looked
through on both sides.
-/

namespace Rowgate.Text

/-- Whether casing looks through `c`. -/
def isCaseIgnorable (c : Char) : Bool := caseIgnorable.holds c.toNat

/-- Whether `c` has a case and is not looked through. -/
def isCased (c : Char) : Bool := cased.holds c.toNat

/-- The small form of a capital other than the dotted I and the sigma; any other character is its
own small form. -/
def smallForm (c : Char) : Char :=
  match capitalRuns.find? (·.holds c.toNat) with
  | some run => Char.ofNat ((c.toNat : Int) + run.shift).toNat
  | none => c

/-- Whether the first character that casing does not look through is cased. -/
def startsCased (cs : List Char) : Bool :=
  match cs.dropWhile isCaseIgnorable with
  | [] => false
  | c :: _ => isCased c

/-- Small letters of a text that follows a cased character or does not. -/
def lowerAfter (afterCased : Bool) : List Char → List Char
  | [] => []
  | c :: rest =>
    let small :=
      if c = 'Σ' then [if afterCased && !startsCased rest then 'ς' else 'σ']
      else if c = 'İ' then ['i', '\u0307']
      else [smallForm c]
    small ++ lowerAfter (if isCaseIgnorable c then afterCased else isCased c) rest

def lower (cs : List Char) : List Char := lowerAfter false cs

/-- `lower` on strings. -/
def lowercase (s : String) : String := String.ofList (lower s.toList)

/-! ## Words of ASCII capitals

A word of ASCII capitals can be spelled with other characters too: the capital form of a few letters
outside ASCII is made of ASCII capitals. -/

/-- Letters outside ASCII whose capital form is written with ASCII letters. -/
def asciiCapitals : List (Char × List Char) := [
  ('ß', ['S', 'S']), ('ı', ['I']), ('ſ', ['S']), ('ﬀ', ['F', 'F']), ('ﬁ', ['F', 'I']),
  ('ﬂ', ['F', 'L']), ('ﬃ', ['F', 'F', 'I']), ('ﬄ', ['F', 'F', 'L']), ('ﬅ', ['S', 'T']),
  ('ﬆ', ['S', 'T'])]

/-- The capital form of `c` as far as ASCII goes: a character without one stays as it is. -/
def asciiCapital (c : Char) : List Char :=
  match asciiCapitals.find? (·.1 == c) with
  | some entry => entry.2
  | none => [c.toUpper]

/-- Whether the capital form of `s` is the word `word` of ASCII capitals. -/
def spellsCapitals (s word : String) : Bool := s.toList.flatMap asciiCapital == word.toList

end Rowgate.Text
