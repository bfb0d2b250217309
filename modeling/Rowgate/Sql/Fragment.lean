import Rowgate.Fault
import Rowgate.Sql.Dialect

/-!
# Fragments

A fragment is the text of a statement, or of a part of one, with the values of its parameters. It is
put together from pieces: words, slots for values, and labels for columns that have no name of their
own. A value never becomes part of the text; what the text says of a slot is its mark.

SQLite marks every slot by a question mark. The standard marks it by a name. A slot for the value
that a column is set to bears the name of the column; any other slot has a stem, which says what the
value is compared with, and a number, which counts the slots and labels of a stem.

The names have to tell the slots apart; `Piece.fault?` says when they do not. For a fragment that is
shown, the value of a slot is looked up by the name as it stands in its mark, which is not found if the
name of a column stands there in another form (`Piece.disguised`).
-/

namespace Rowgate.Sql

inductive Piece
  | words (s : String)
  /-- A numbered slot. -/
  | slot (stem : String) (value : Value)
  /-- The slot of the value that a column is set to. -/
  | assigned (column : String) (value : Value)
  | label (stem : String)

/-- A text and the values of its parameters, in the order of their slots. -/
structure Fragment where
  sql : String
  parameters : List Value

/-! ## Stems -/

def isStemGap (c : Char) : Bool := "%() $:.[]".contains c

/-- The text with one low line for each run of characters that cannot stand in a stem. -/
def closeGaps : List Char → List Char
  | [] => []
  | c :: cs =>
    if isStemGap c then
      if cs.head?.any isStemGap then closeGaps cs else '_' :: closeGaps cs
    else c :: closeGaps cs

def stripLowLines (cs : List Char) : List Char :=
  ((cs.dropWhile (· = '_')).reverse.dropWhile (· = '_')).reverse

/-- The stem of slots for values of a column. -/
def stemOf (column : String) : String := String.ofList (stripLowLines (closeGaps column.toList))

/-- The stem of slots for arguments of the function for small letters. -/
def lowerStem : String := "lower"

/-- The stem of slots for values that are compared with no column. -/
def plainStem : String := "param"

/-! ## Names -/

/-- The length of the longest name of a slot that is not cut. -/
def longestName : Nat := 9993

/-- The digits of a number in the base 16. -/
def baseSixteen (n : Nat) : String := String.ofList (Nat.toDigits 16 n)

/-- The stems that have been numbered, the last one first, and how many names have been cut. -/
structure Naming where
  seen : List String
  cut : Nat

namespace Naming

def fresh : Naming := ⟨[], 0⟩

/-- The name of the next slot or label of a stem before it is cut. -/
def numbered (n : Naming) (stem : String) : String :=
  stem ++ "_" ++ toString (n.seen.count stem + 1)

/-- Whether the next name of a stem is cut. -/
def isCut (n : Naming) (stem : String) : Bool := decide (longestName < (n.numbered stem).length)

/-- The name of the next slot or label of a stem. Names that are too long are told apart by a number
after what is left of them. -/
def name (n : Naming) (stem : String) : String :=
  if n.isCut stem then
    String.ofList ((n.numbered stem).toList.take longestName) ++ "_" ++ baseSixteen (n.cut + 1)
  else n.numbered stem

/-- What has been named after the next slot or label of a stem. -/
def next (n : Naming) (stem : String) : Naming :=
  ⟨stem :: n.seen, if n.isCut stem then n.cut + 1 else n.cut⟩

end Naming

/-- A character of the name of a column as it stands in a mark. -/
def markChar (c : Char) : Char :=
  match c with
  | '%' => 'P'
  | '(' => 'A'
  | ')' => 'Z'
  | ':' => 'C'
  | '.' | '[' | ']' | ' ' => '_'
  | c => c

/-- The name of a column as it stands in a mark. -/
def markedName (column : String) : String := String.ofList (column.toList.map markChar)

namespace Dialect

/-- The mark of a slot of a name. -/
def mark (d : Dialect) (name : String) : String :=
  match d with
  | .sqlite => "?"
  | .standard => ":" ++ name

/-- The text of pieces after what has been named. -/
def text (d : Dialect) (n : Naming) : List Piece → String
  | [] => ""
  | .words s :: ps => s ++ text d n ps
  | .slot stem _ :: ps => d.mark (n.name stem) ++ text d (n.next stem) ps
  | .assigned column _ :: ps => d.mark (markedName column) ++ text d n ps
  | .label stem :: ps => n.name stem ++ text d (n.next stem) ps

end Dialect

namespace Piece

def values : List Piece → List Value
  | [] => []
  | .slot _ v :: ps => v :: values ps
  | .assigned _ v :: ps => v :: values ps
  | _ :: ps => values ps

theorem values_append (ps qs : List Piece) : values (ps ++ qs) = values ps ++ values qs := by
  induction ps with
  | nil => rfl
  | cons p ps ih => cases p <;> simp [values, ih]

/-- The columns that values are set to. -/
def columns : List Piece → List String
  | [] => []
  | .assigned column _ :: ps => column :: columns ps
  | _ :: ps => columns ps

/-- The names of the numbered slots of pieces after what has been named. -/
def slotNames (n : Naming) : List Piece → List String
  | [] => []
  | .slot stem _ :: ps => n.name stem :: slotNames (n.next stem) ps
  | .label stem :: ps => slotNames (n.next stem) ps
  | _ :: ps => slotNames n ps

/-- Whether a numbered slot has the name of a column that is set. -/
def areAmbiguous (ps : List Piece) : Bool := (slotNames .fresh ps).any (columns ps).contains

/-- The columns that values are set to and whose names stand in their marks in another form. -/
def disguised (ps : List Piece) : List String := (columns ps).filter fun c => markedName c != c

/-- Why the slots of pieces cannot be told apart, if they cannot. -/
def fault? (ps : List Piece) : Option Fault :=
  if areAmbiguous ps then some .ambiguous
  else if !decide ((disguised ps).map markedName).Nodup then some .commonMark
  else none

end Piece

def Dialect.render (d : Dialect) (ps : List Piece) : Fragment :=
  ⟨d.text .fresh ps, Piece.values ps⟩

end Rowgate.Sql
