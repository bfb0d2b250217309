import Rowgate.Filter.Operator
import Rowgate.Sql.Table

/-!
# Clauses

What the rows of a table have to satisfy. A clause is a constant, a test of one column, or a group.
`Clause.combine` builds groups in a normal form: no group is a direct member of a group of the same
logic, no group has fewer than two members, and constants that a group was reduced by are gone from
it.

A constant that is left when a group is reduced is `settled`: it is spelled as a comparison, since
it stands for a group, and it is no longer reduced.
-/

namespace Rowgate.Sql

/-- How a column is compared with a value. -/
inductive Relation
  | eq
  | neq
  | lt
  | lte
  | gt
  | gte
  deriving DecidableEq

namespace Relation

def sign : Relation → String
  | .eq => "="
  | .neq => "!="
  | .lt => "<"
  | .lte => "<="
  | .gt => ">"
  | .gte => ">="

/-- Whether the relation asks for the order of its sides. -/
def isOrder : Relation → Bool
  | .eq | .neq => false
  | _ => true

end Relation

/-- What a row has to satisfy. -/
inductive Clause
  /-- A constant. -/
  | truth (b : Bool)
  /-- A constant in place of a group. -/
  | settled (b : Bool)
  /-- A comparison of a column with a value, both in small letters if `fold`. -/
  | compare (column : Column) (relation : Relation) (fold : Bool) (value : Value)
  /-- A pattern that the text of a column has, or has not if `negated`; both in small letters if
  `fold`. -/
  | like (column : Column) (negated fold : Bool) (pattern : String)
  /-- Whether a column has no value, or has one if `negated`. -/
  | missing (column : Column) (negated : Bool)
  /-- Whether a column has the empty text, or another value if `negated`. -/
  | empty (column : Column) (negated : Bool)
  | group (logic : Logic) (members : List Clause)

namespace Clause

/-- The constant that does not matter beside other members of a group. -/
def neutral : Logic → Bool
  | .all => true
  | .any => false

/-- Whether a clause is a given constant. -/
def isTruth (b : Bool) : Clause → Bool
  | .truth c => c == b
  | _ => false

/-- The members of a group of the logic, or the clause itself. -/
def splice (logic : Logic) : Clause → List Clause
  | .group l cs => if l = logic then cs else [.group l cs]
  | c => [c]

/-- A group in normal form of members that are no constants. -/
def gather (logic : Logic) : List Clause → Clause
  | [] => .settled (neutral logic)
  | [c] => c
  | cs => .group logic (cs.flatMap (splice logic))

/-- The clause that combines others. A constant that decides the group takes its place; constants
that do not matter are left out. -/
def combine (logic : Logic) (cs : List Clause) : Clause :=
  if cs.isEmpty then .truth (neutral logic)
  else if cs.any (isTruth !neutral logic) then .settled (!neutral logic)
  else gather logic (cs.filter fun c => !isTruth (neutral logic) c)

mutual

def namesColumn : Clause → Bool
  | .truth _ | .settled _ => false
  | .group _ cs => anyNamesColumn cs
  | _ => true

/-- Whether one of the clauses names a column. -/
def anyNamesColumn : List Clause → Bool
  | [] => false
  | c :: cs => namesColumn c || anyNamesColumn cs

end

/-- The clause as the condition of a statement: a constant is spelled as a comparison there. -/
def settle : Clause → Clause
  | .truth b => .settled b
  | c => c

end Clause

end Rowgate.Sql
