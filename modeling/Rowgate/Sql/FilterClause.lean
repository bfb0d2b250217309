import Rowgate.Filter.Condition
import Rowgate.Sql.Clause
import Rowgate.Sql.Pattern

/-!
# The clause of a filter

A filter becomes a clause over the columns of a table. Missing members of a group count for nothing,
a comparison with null is false whatever the row, and every fault of the filter is found here, the
first one from the left.
-/

namespace Rowgate

namespace Operator

open Sql

/-- How an operator compares a column with its condition, if it does. -/
def relation? : Operator → Option Relation
  | .eq => some .eq
  | .neq => some .neq
  | .lt => some .lt
  | .lte => some .lte
  | .gt => some .gt
  | .gte => some .gte
  | _ => none

/-- A comparison of a column with a value. Only texts have small letters, and a truth value can be
equal to a column or not, but has no order with it. -/
def comparison (r : Relation) (c : Column) (fold : Bool) (v : Value) : Except Fault Clause :=
  match v with
  | .null => .ok (.truth false)
  | .str _ => .ok (.compare c r fold v)
  | .bool _ => if r.isOrder then .error .truthOrder else .ok (.compare c r false v)
  | v => .ok (.compare c r false v)

/-- A search of a column for the text of a value. -/
def search (o : Operator) (c : Column) (fold : Bool) (v : Value) : Except Fault Clause :=
  if v.isNull then .ok (.truth false)
  else
    match v.plain with
    | .ok cs => .ok (.like c (o == .doesNotContain) fold (String.ofList (patternOf o cs)))
    | .error f => .error (.value (.integer f))

/-- The clause of an operator on a column with a condition. -/
def clause (o : Operator) (c : Column) (fold : Bool) (v : Value) : Except Fault Clause :=
  match o with
  | .isNull => .ok (.missing c false)
  | .isNotNull => .ok (.missing c true)
  | .isEmpty => .ok (.empty c false)
  | .isNotEmpty => .ok (.empty c true)
  | o =>
    match o.relation? with
    | some r => comparison r c fold v
    | none => o.search c fold v

end Operator

namespace Sql

/-- What a filter becomes a clause for: a table, the fields of its entity, and the operators that
may be used. -/
structure ClauseScope where
  table : Table
  fields : List Field
  operators : List Operator

namespace Clause

def ofTest (s : ClauseScope) (t : Test) : Except Fault Clause :=
  match t.operator with
  | none => .error (Filter.fault t.fieldName "Missing operator")
  | some o =>
    if s.operators.contains o then
      match s.table.column? t.fieldName with
      | none => .error (Filter.fault t.fieldName "Unknown field")
      | some c => do
        let field := fieldNamed? s.fields t.fieldName
        let condition ← t.condition field
        o.clause c (t.folds field) condition
    else .error (Filter.fault t.fieldName ("Unsupported operator: " ++ o.name))

mutual

def ofFilter (s : ClauseScope) : Filter → Except Fault Clause
  | .node t logic members =>
    if members.isEmpty then ofTest s t
    else do
      let cs ← ofMembers s members
      .ok (combine logic cs)

/-- The clauses of the members of a group. -/
def ofMembers (s : ClauseScope) : List (Option Filter) → Except Fault (List Clause)
  | [] => .ok []
  | none :: ms => ofMembers s ms
  | some f :: ms => do
    let c ← ofFilter s f
    let cs ← ofMembers s ms
    .ok (c :: cs)

end

/-- The clause of a filter, if there is one. -/
def ofFilterIfAny (s : ClauseScope) (f : Option Filter) : Except Fault (Option Clause) :=
  match f with
  | some f => (ofFilter s f).map some
  | none => .ok none

end Clause

end Sql

end Rowgate
