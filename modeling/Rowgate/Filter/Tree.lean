import Rowgate.Filter.Operator
import Rowgate.Entity.Coerce
import Rowgate.Entity.Shape

/-!
# Filters

A filter is a tree. A node without members is a test of one field; a node with members is a group,
whose members are combined by its logic. A member may be missing. Every node can carry both the
parts of a test and a logic, and what does not matter for its kind is kept but has no effect.

`Filter.ofValue` reads a filter from structured data and `Filter.toRecord` writes the parts that
matter.
-/

namespace Rowgate

open Shape

structure Test where
  field : Option String
  operator : Option Operator
  value : Value
  ignoreCase : Bool
  deriving BEq

def Test.blank : Test := ⟨none, none, .null, false⟩

def Test.of (field : String) (operator : Operator) (value : Value) (ignoreCase : Bool) : Test :=
  ⟨some field, some operator, value, ignoreCase⟩

/-- The name of the field that is tested; a missing name is the empty one. -/
def Test.fieldName (t : Test) : String := t.field.getD ""

inductive Filter
  | node (test : Test) (logic : Logic) (members : List (Option Filter))

namespace Filter

/-- The parts of the test of a node. -/
def test : Filter → Test
  | .node t _ _ => t

def logic : Filter → Logic
  | .node _ l _ => l

def members : Filter → List (Option Filter)
  | .node _ _ ms => ms

def isGroup (f : Filter) : Bool := !f.members.isEmpty

def leaf (t : Test) : Filter := .node t .all []

def group (logic : Logic) (members : List (Option Filter)) : Filter := .node .blank logic members

/-! ## Reading -/

/-- The rule that every test needs a field and an operator. -/
def incomplete : Cause := .rule "A leaf filter requires both 'field' and 'operator'"

/-- The name under which a check reports that something is no filter. -/
def structureName : String := "RestFilter"

/-- An operator by its name, in any letter case. -/
def readOperator : Value → Checked (Option Operator)
  | .null => .ok none
  | .str s =>
    match Operator.ofName? (normalName s) with
    | some o => .ok (some o)
    | none => .error (.unknownOperator s)
  | v => (oneOf (Operator.all.map fun o => (o.name, o)) v).map some

/-- A logic by its name, in any letter case. -/
def readLogic : Value → Checked Logic
  | .str s => oneOf Logic.choices (.str (normalName s))
  | v => oneOf Logic.choices v

/-- The key of the mark of tests that ignore the case of letters. -/
def ignoreCaseKey : Key := ⟨"ignoreCase", "ignore_case"⟩

def membersKey : String := "filters"

/-- Whether a node says what it tests: it names a field and an operator, or it has members. -/
def complete (t : Test) (members : List (Option Filter)) : Bool :=
  !members.isEmpty || (!t.fieldName.isEmpty && t.operator.isSome)

/-- A node from its entries and the check of its members. -/
def ofParts (r : Record) (members : Checked (List (Option Filter))) : Checked Filter := do
  let (field, operator, value, ignoreCase, logic, members) ←
    both (memberOr r (.plain "field") none (nullable text))
      (both (memberOr r (.plain "operator") none readOperator)
      (both (memberOr r (.plain "value") .null .ok)
      (both (memberOr r ignoreCaseKey false truth)
      (both (memberOr r (.plain "logic") .all readLogic) members))))
  let t : Test := ⟨field, operator, value, ignoreCase⟩
  if complete t members then .ok (.node t logic members) else problem incomplete

/-- How many nodes of a filter that is read may lie inside each other. -/
def depthLimit : Nat := 255

mutual

/-- A filter from a value, at most `depth` nodes deep. -/
def nodeOf : (depth : Nat) → Value → Checked Filter
  | 0, _ => problem .tooDeep
  | depth + 1, v =>
    match v with
    | .dict entries => ofParts entries (membersIn depth entries)
    | _ => problem (.notStructure structureName)

/-- The members that the entries of a node list. -/
def membersIn (depth : Nat) : List (String × Value) → Checked (List (Option Filter))
  | [] => .ok []
  | (name, v) :: rest =>
    if name = membersKey then within membersKey (membersOf depth v) else membersIn depth rest

def membersOf (depth : Nat) : Value → Checked (List (Option Filter))
  | .list vs => membersFrom depth 0 vs
  | _ => problem .notList

/-- The members from place `i` on. -/
def membersFrom (depth i : Nat) : List Value → Checked (List (Option Filter))
  | [] => .ok []
  | v :: vs => do
    let member := if v.isNull then .ok none else (nodeOf depth v).map some
    let (f, fs) ← both (within (toString i) member) (membersFrom depth (i + 1) vs)
    .ok (f :: fs)

end

def ofValue (v : Value) : Checked Filter := nodeOf depthLimit v

/-- A filter from a value, or the fault of a filter that is none. -/
def read (v : Value) : Except Fault Filter :=
  (ofValue v).mapError (Fault.ofRejection Operator.names)

/-! ## Writing -/

/-- The name of an operator, null without one. -/
def operatorValue (o : Option Operator) : Value := optionalText (o.map Operator.name)

def testRecord (t : Test) : Record :=
  [("field", optionalText t.field), ("operator", operatorValue t.operator), ("value", t.value)] ++
    if t.ignoreCase then [("ignoreCase", .bool true)] else []

mutual

/-- The entries of a node, as far as they matter. -/
def toRecord : Filter → Record
  | .node t logic members =>
    if members.isEmpty then testRecord t
    else [("logic", .str logic.name), (membersKey, .list (memberValues members))]

def memberValues : List (Option Filter) → List Value
  | [] => []
  | none :: ms => .null :: memberValues ms
  | some f :: ms => .dict (toRecord f) :: memberValues ms

end

def toValue (f : Filter) : Value := .dict f.toRecord

/-! ## Ranges -/

/-- The filter for the values of a field from one bound to another, both included. -/
def between (field : String) (lower upper : Value) : Except ValueFault Filter :=
  if field.isEmpty then .error .noField
  else if lower.isNull then .error .noLowerBound
  else if upper.isNull then .error .noUpperBound
  else
    .ok (group .all [
      some (leaf (.of field .gte lower false)), some (leaf (.of field .lte upper false))])

end Filter

end Rowgate
