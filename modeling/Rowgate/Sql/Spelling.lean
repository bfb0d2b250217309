import Rowgate.Sql.Clause
import Rowgate.Sql.Fragment

/-!
# Spelling of clauses

A clause over a table as pieces of a statement. Values go into slots, so the words that are spelled
depend on the columns and on the shape of the clause alone. The one exception is a truth value,
which is spelled as a digit.
-/

namespace Rowgate.Sql

namespace Clause

/-- The slot of a value that a column is compared with; a truth value is written as a digit
instead. -/
def comparand (stem : String) (v : Value) : Piece :=
  match v with
  | .bool b => .words (if b then "1" else "0")
  | v => .slot stem v

def inSmallLetters (ps : List Piece) : List Piece := .words "lower(" :: (ps ++ [.words ")"])

/-- The column of a pattern, as a text. -/
def patternTarget (d : Dialect) (t : Table) (c : Column) : String :=
  if c.type.isText then t.columnPath d c else "CAST(" ++ t.columnPath d c ++ " AS VARCHAR)"

/-- The stem of the slot of a pattern. -/
def patternStem (c : Column) : String := if c.type.isText then stemOf c.name else plainStem

def comparePieces (d : Dialect) (t : Table) (c : Column) (r : Relation) (fold : Bool) (v : Value) :
    List Piece :=
  if fold then
    inSmallLetters [.words (t.columnPath d c)] ++ [.words (" " ++ r.sign ++ " ")] ++
      inSmallLetters [comparand lowerStem v]
  else
    [.words (t.columnPath d c), .words (" " ++ r.sign ++ " "), comparand (stemOf c.name) v]

/-- The word for having a pattern, or not having it. -/
def likeWord (negated : Bool) : String := if negated then " NOT LIKE " else " LIKE "

/-- The end of a pattern, which names the character that makes the next one stand for itself. -/
def escapeWords : String := " ESCAPE '/'"

/-- The pieces of a search for a pattern. -/
def likePieces (d : Dialect) (t : Table) (c : Column) (negated fold : Bool) (pattern : String) :
    List Piece :=
  let target := patternTarget d t c
  (if fold then
    inSmallLetters [.words target] ++ [.words (likeWord negated)] ++
      inSmallLetters [.slot lowerStem (.str pattern)]
  else
    [.words target, .words (likeWord negated), .slot (patternStem c) (.str pattern)]) ++
    [.words escapeWords]

/-- The words between the members of a group. -/
def junction : Logic → String
  | .all => " AND "
  | .any => " OR "

/-- Whether a member of a group stands in parentheses: a choice among conditions that all have to
hold does. -/
def isEnclosed (logic : Logic) : Clause → Bool
  | .group .any _ => logic == .all
  | _ => false

/-- The pieces, in parentheses if `b`. -/
def enclose (b : Bool) (ps : List Piece) : List Piece :=
  if b then .words "(" :: (ps ++ [.words ")"]) else ps

mutual

/-- The pieces of a clause over a table. -/
def pieces (d : Dialect) (t : Table) : Clause → List Piece
  | .truth b => [.words (if b then "1" else "0")]
  | .settled b => [.words (if b then "1 = 1" else "0 = 1")]
  | .compare c r fold v => comparePieces d t c r fold v
  | .like c negated fold pattern => likePieces d t c negated fold pattern
  | .missing c negated =>
    [.words (t.columnPath d c ++ if negated then " IS NOT NULL" else " IS NULL")]
  | .empty c negated => [.words (t.columnPath d c ++ if negated then " != ''" else " = ''")]
  | .group logic cs => memberPieces d t logic true cs

/-- The pieces of the members of a group, from the first one or a later one on. -/
def memberPieces (d : Dialect) (t : Table) (logic : Logic) (first : Bool) : List Clause → List Piece
  | [] => []
  | c :: cs =>
    (if first then [] else [.words (junction logic)]) ++
      enclose (isEnclosed logic c) (pieces d t c) ++ memberPieces d t logic false cs

end

end Clause

end Rowgate.Sql
