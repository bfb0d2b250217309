import Rowgate.Text.Surrogate

/-!
# Names that look alike

A misspelled name is answered with the known names it resembles. Two texts resemble each other as
far as they share blocks: the longest common block is found first, then the longest ones on its left
and on its right, and so on. The resemblance is twice the number of shared characters over the
number of all characters.

In a long text some characters are too frequent to find blocks by. A block is then found by the
other characters alone and only afterwards extended to both sides by whatever is common there.
-/

namespace Rowgate.Text

/-- How many characters the two texts have in common at their start. -/
def commonStart : List Char → List Char → Nat
  | a :: as, b :: bs => if a = b then commonStart as bs + 1 else 0
  | _, _ => 0

/-- How many characters the two texts have in common at their start before the first frequent
one. -/
def rareStart (frequent : List Char) (a b : List Char) : Nat :=
  commonStart (a.takeWhile fun c => !frequent.contains c) b

/-- A block shared by two texts: where it starts in each, and its length. -/
structure Block where
  left : Nat
  right : Nat
  size : Nat

/-- The longer of two blocks, the first one if they are equally long. -/
def Block.longer (x y : Block) : Block := if x.size < y.size then y else x

/-- The longest block that starts at the beginning of `a`, at the first place in `b` that has it. -/
def longestAt (frequent : List Char) (left : Nat) (a : List Char) :
    (right : Nat) → (b : List Char) → Block
  | right, [] => ⟨left, right, 0⟩
  | right, c :: b =>
    Block.longer ⟨left, right, rareStart frequent a (c :: b)⟩
      (longestAt frequent left a (right + 1) b)

/-- The longest block without frequent characters, the first in `a` and then the first in `b`. -/
def longestRare (frequent : List Char) (left : Nat) : (a : List Char) → (b : List Char) → Block
  | [], _ => ⟨left, 0, 0⟩
  | c :: a, b =>
    Block.longer (longestAt frequent left (c :: a) 0 b) (longestRare frequent (left + 1) a b)

/-- A block with all that is common before and after it. -/
def Block.extend (x : Block) (a b : List Char) : Block :=
  let before := commonStart (a.take x.left).reverse (b.take x.right).reverse
  let after := commonStart (a.drop (x.left + x.size)) (b.drop (x.right + x.size))
  ⟨x.left - before, x.right - before, before + x.size + after⟩

/-- The longest block shared by `a` and `b`, found by characters that are not frequent. -/
def longestBlock (frequent : List Char) (a b : List Char) : Block :=
  (longestRare frequent 0 a b).extend a b

/-- How many characters lie in shared blocks. The fuel bounds the nesting of blocks. -/
def sharedWithin (frequent : List Char) : (fuel : Nat) → List Char → List Char → Nat
  | 0, _, _ => 0
  | fuel + 1, a, b =>
    let block := longestBlock frequent a b
    if block.size = 0 then 0
    else
      block.size + sharedWithin frequent fuel (a.take block.left) (b.take block.right) +
        sharedWithin frequent fuel (a.drop (block.left + block.size))
          (b.drop (block.right + block.size))

/-- The frequent characters of a text: of at least two hundred characters, more than one in a
hundred and one more. -/
def frequentIn (cs : List Char) : List Char :=
  if cs.length < 200 then [] else cs.eraseDups.filter fun c => cs.length / 100 + 1 < cs.count c

/-- How many characters of two texts lie in shared blocks, where the second text says which
characters are frequent; no nesting is deeper than the text. -/
def shared (a b : List Char) : Nat := sharedWithin (frequentIn b) (a.length + 1) a b

/-- A resemblance: `part` of `whole` characters. -/
structure Resemblance where
  part : Nat
  whole : Nat

/-- The resemblance of two texts; two empty texts are alike. -/
def resemblance (a b : List Char) : Resemblance :=
  if a.length + b.length = 0 then ⟨1, 1⟩ else ⟨2 * shared a b, a.length + b.length⟩

def Resemblance.lt (x y : Resemblance) : Bool := decide (x.part * y.whole < y.part * x.whole)

/-- The known names that resemble `name` by three fifths or more, at most three of them, the most
alike first and equally alike ones in descending order. -/
def closestNames (name : String) (known : List String) : List String :=
  let rated := known.map fun k => (resemblance k.toList name.toList, k)
  let close := rated.filter fun (r, _) => !r.lt ⟨3, 5⟩
  let order : Resemblance × String → Resemblance × String → Bool := fun (r, x) (s, y) =>
    s.lt r || (!r.lt s && notAfter y x)
  ((close.mergeSort order).take 3).map (·.2)

end Rowgate.Text
