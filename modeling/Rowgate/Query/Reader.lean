import Rowgate.Encoding.Form
import Rowgate.Query.Basic

/-!
# Reading queries

A query comes as named parts, usually from a query string. Names are read in any letter case, and of
parts with one name the last one counts. Page and count are forgiving: what is no number or no truth
value is passed over. Filter and order are not: they are JSON, and the first fault ends the reading.
-/

namespace Rowgate

inductive QueryPart
  | take
  | skip
  | withCount
  | sort
  | filter
  | search
  deriving DecidableEq

namespace QueryPart

def name : QueryPart → String
  | .take => "take"
  | .skip => "skip"
  | .withCount => "withcount"
  | .sort => "sort"
  | .filter => "filter"
  | .search => "smartfilter"

def all : List QueryPart := [.take, .skip, .withCount, .sort, .filter, .search]

def ofName? (s : String) : Option QueryPart := all.find? (·.name == s)

end QueryPart

namespace Query

def partFault (part : QueryPart) (messages : List String) : Fault :=
  .ofMessages .filter part.name messages

/-! ## Single parts -/

/-- An octet as a character; octets outside ASCII stand for none. -/
def asciiChar (octet : UInt8) : Char :=
  if octet.toNat < 128 then Char.ofNat octet.toNat else Utf8.replacement

/-- The integer part of a decimal; none if it is no number. -/
def wholePart : Decimal → Except Fault (Option Int)
  | .finite n c e => .ok (some (Decimal.truncate n c e))
  | .infinite _ => .error .infinite
  | .nan .. => .ok none

/-- The integer that a value stands for; none if it stands for no integer. -/
def wholeNumber (v : Value) : Except Fault (Option Int) :=
  match v with
  | .bool b => .ok (some (if b then 1 else 0))
  | .int i => .ok (some i)
  | .decimal d => wholePart d
  | .float f => wholePart f.toDecimal
  | .str s => .ok (readInteger s.toList).toOption
  | .bytes os => .ok (readInteger (os.map asciiChar)).toOption
  | _ => .ok none

/-- The truth value that a value stands for; none if it stands for no truth value. -/
def truthWord (v : Value) : Except Fault (Option Bool) :=
  match v with
  | .bool b => .ok (some b)
  | v =>
    match v.plainText with
    | .ok s =>
      let word := normalName s
      .ok (if word = "true" then some true else if word = "false" then some false else none)
    | .error f => .error (.value (.integer f))

/-- The value of a part that is written in JSON; none if the part is empty. -/
def loadPart (part : QueryPart) (v : Value) : Except Fault Value :=
  match v with
  | .str s =>
    if s.isEmpty then .ok .null
    else
      (Json.read s.toList).mapError (Fault.ofRefusal fun reason => partFault part [reason])
  | v => .ok v

/-- The result of a check of a part; its problems become messages about the part. -/
def checkPart {α : Type} (part : QueryPart) (c : Shape.Checked α) : Except Fault α :=
  c.mapError fun
    | .problems ps => partFault part (ps.map (·.message))
    | .unknownOperator name => .unknownOperator name Operator.names

def readFilter (raw : Value) : Except Fault (Option Filter) := do
  match ← loadPart .filter raw with
  | .null => .ok none
  | .dict entries => (checkPart .filter (Filter.ofValue (.dict entries))).map some
  | _ => .error (partFault .filter ["Expected a JSON object"])

/-- The fields to order by, up to the first that is none. -/
def readKeys : List Value → Except Fault (List SortKey)
  | [] => .ok []
  | v :: vs => do
    let k ← checkPart .sort (SortKey.ofValue v)
    let ks ← readKeys vs
    .ok (k :: ks)

def readSort (raw : Value) : Except Fault (List SortKey) := do
  match ← loadPart .sort raw with
  | .null => .ok []
  | .list vs => readKeys vs
  | _ => .error (partFault .sort ["Expected a JSON array"])

/-! ## All parts -/

def setPart (q : Query) (part : QueryPart) (v : Value) : Except Fault Query :=
  match part with
  | .take => do
    let i ← wholeNumber v
    .ok (match i with
      | some i => { q with take := i.toNat }
      | none => q)
  | .skip => do
    let i ← wholeNumber v
    .ok (match i with
      | some i => { q with skip := i.toNat }
      | none => q)
  | .withCount => do
    let b ← truthWord v
    .ok { q with withCount := b.getD q.withCount }
  | .sort => do
    let sort ← readSort v
    .ok { q with sort }
  | .filter => do
    let filter ← readFilter v
    .ok { q with filter }
  | .search => .ok { q with search := if v.isTrue then v else .null }

/-- Sets the parts of a query in order; names of no part are passed over. -/
def setParts (q : Query) : Record → Except Fault Query
  | [] => .ok q
  | (name, v) :: rest => do
    let q ← match QueryPart.ofName? name with
      | some part => setPart q part v
      | none => .ok q
    setParts q rest

/-- The named parts of a query under their normal names. -/
def normalParts (pairs : List (String × Value)) : Record :=
  Record.ofEntries (pairs.map fun (name, v) => (normalName name, v))

/-- A query from its named parts; none if there are none. -/
def ofPairs (pairs : List (String × Value)) : Except Fault (Option Query) :=
  match normalParts pairs with
  | [] => .ok none
  | parts => (setParts everything parts).map some

/-- The pairs of a query string, which may start with question marks. -/
def pairsOf (s : String) : List (String × Value) :=
  (Form.decodePairs (s.toList.dropWhile (· == '?'))).map fun (name, text) => (name, .str text)

def ofText (s : String) : Except Fault (Option Query) := ofPairs (pairsOf s)

end Query

end Rowgate
