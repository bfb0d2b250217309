import Rowgate.Filter.Condition
import Rowgate.Store.Evaluate

/-!
# Predicates on records

A filter is compiled once and then asked of many records. Compiling looks up fields, brings the
conditions to the form of their fields and finds every fault of the filter; what is left is a tree
of tests. A test brings the value of a record to the form of the field, too, before it compares.

Groups are combined two by two: unless all members are wanted, only the first two of each group
count, missing ones included, and a warning tells of the rest.
-/

namespace Rowgate

inductive Predicate
  | test (name : String) (field : Option Field) (operator : Operator) (condition : Value)
    (fold : Bool)
  | group (logic : Logic) (members : List Predicate)

/-- What a filter is compiled for: the fields it may name, the operators that may be used, and
whether all members of a group count. -/
structure FilterScope where
  fields : List Field
  operators : List Operator
  allMembers : Bool

/-- How many members of a group count if not all do. -/
def groupLimit : Nat := 2

namespace Predicate

def always : Predicate := .group .all []

/-! ## Compiling -/

/-- The warning about members that do not count. -/
def dropped (logic : Logic) (count : Nat) : String :=
  "Composite '" ++ logic.name ++ "' filter has " ++ toString count ++
    " children; only the first " ++ toString groupLimit ++ " are evaluated"

/-- How many members of a group of `count` members count. -/
def FilterScope.limit (s : FilterScope) (count : Nat) : Nat :=
  if s.allMembers then count else groupLimit

def ofTest (s : FilterScope) (t : Test) : Except Fault Predicate :=
  match t.operator with
  | none => .error (Filter.fault t.fieldName "Missing operator")
  | some o =>
    if s.operators.contains o then do
      let field := fieldNamed? s.fields t.fieldName
      let condition ← t.condition field
      .ok (.test t.fieldName field o condition (t.folds field))
    else .error (Filter.fault t.fieldName ("Unsupported operator: " ++ o.name))

mutual

def ofFilter (s : FilterScope) : Filter → Traced Predicate
  | .node t logic members =>
    if members.isEmpty then Traced.ofResult (ofTest s t)
    else do
      let limit := FilterScope.limit s members.length
      if limit < members.length then
        Traced.note .files .warning (dropped logic members.length)
      let ps ← ofMembers s limit members
      return .group logic ps

/-- The first members of a group compiled for records; missing members are passed over. -/
def ofMembers (s : FilterScope) (limit : Nat) : List (Option Filter) → Traced (List Predicate)
  | [] => return []
  | none :: ms => if limit = 0 then return [] else ofMembers s (limit - 1) ms
  | some f :: ms =>
    if limit = 0 then return []
    else do
      let p ← ofFilter s f
      let ps ← ofMembers s (limit - 1) ms
      return p :: ps

end

/-- A filter compiled for records, if there is one. -/
def ofFilterIfAny (s : FilterScope) (f : Option Filter) : Traced Predicate :=
  match f with
  | some f => ofFilter s f
  | none => return always

/-! ## Asking -/

mutual

/-- Whether a record satisfies a predicate. Members of a group are asked in order until one
decides. -/
def accepts (r : Record) : Predicate → Except Fault Bool
  | .test name field operator condition fold =>
    match coerceFor field (Record.field r name) with
    | .ok v => operator.holds fold v condition
    | .error f => .error (.value f)
  | .group .all ps => acceptsAll r ps
  | .group .any ps => acceptsAny r ps

def acceptsAll (r : Record) : List Predicate → Except Fault Bool
  | [] => .ok true
  | p :: ps => do if ← accepts r p then acceptsAll r ps else .ok false

/-- Whether a record satisfies one of the predicates. -/
def acceptsAny (r : Record) : List Predicate → Except Fault Bool
  | [] => .ok false
  | p :: ps => do if ← accepts r p then .ok true else acceptsAny r ps

end

end Predicate

end Rowgate
