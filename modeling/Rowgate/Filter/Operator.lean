import Rowgate.Text.Blank
import Rowgate.Text.Case

/-!
# Operators of a test

A test compares a field with a condition. Six operators compare values, four look for a text inside
a text, and four ask whether there is a value or a text at all; the last four have no condition. The
logic of a group says whether all of its members have to hold or one is enough.
-/

namespace Rowgate

inductive Operator
  | eq
  | neq
  | lt
  | lte
  | gt
  | gte
  | startsWith
  | endsWith
  | contains
  | doesNotContain
  | isNull
  | isNotNull
  | isEmpty
  | isNotEmpty
  deriving DecidableEq

namespace Operator

/-- Every operator, in the order in which they are listed. -/
def all : List Operator := [
  .eq, .neq, .lt, .lte, .gt, .gte, .startsWith, .endsWith, .contains, .doesNotContain, .isNull,
  .isNotNull, .isEmpty, .isNotEmpty]

def name : Operator → String
  | .eq => "eq"
  | .neq => "neq"
  | .lt => "lt"
  | .lte => "lte"
  | .gt => "gt"
  | .gte => "gte"
  | .startsWith => "startswith"
  | .endsWith => "endswith"
  | .contains => "contains"
  | .doesNotContain => "doesnotcontain"
  | .isNull => "isnull"
  | .isNotNull => "isnotnull"
  | .isEmpty => "isempty"
  | .isNotEmpty => "isnotempty"

def names : List String := all.map name

def ofName? (s : String) : Option Operator := all.find? (·.name == s)

/-- Whether the operator looks at values as texts. -/
def isTextual : Operator → Bool
  | .startsWith | .endsWith | .contains | .doesNotContain | .isEmpty | .isNotEmpty => true
  | _ => false

def isValueless : Operator → Bool
  | .isNull | .isNotNull | .isEmpty | .isNotEmpty => true
  | _ => false

theorem mem_all (o : Operator) : o ∈ all := by cases o <;> decide

theorem ofName?_name (o : Operator) : ofName? o.name = some o := by cases o <;> decide

end Operator

/-- How the members of a group are combined. -/
inductive Logic
  | all
  | any
  deriving DecidableEq

namespace Logic

def name : Logic → String
  | .all => "and"
  | .any => "or"

def choices : List (String × Logic) := [("and", .all), ("or", .any)]

end Logic

/-- A name as it is looked up: without blanks around it, in small letters. -/
def normalName (s : String) : String := String.ofList (Text.lower (Text.trim s.toList))

end Rowgate
