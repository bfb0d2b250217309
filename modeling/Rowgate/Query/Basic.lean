import Rowgate.Filter.Equality
import Rowgate.Query.Search

/-!
# Queries

A query says which records of an entity are wanted: a filter, a search, an order, and a page of what
is left. A page starts after `skip` records and has at most `take`, where zero sets no limit. A
query can ask for the number of all records that pass.
-/

namespace Rowgate

open Shape

inductive Direction
  | ascending
  | descending
  deriving DecidableEq

namespace Direction

def name : Direction → String
  | .ascending => "Ascending"
  | .descending => "Descending"

def choices : List (String × Direction) :=
  [("Ascending", .ascending), ("Descending", .descending)]

/-- The direction of a name or a short name, in any letter case. -/
def ofName? (s : String) : Option Direction :=
  let word := normalName s
  if word = "asc" ∨ word = "ascending" then some .ascending
  else if word = "desc" ∨ word = "descending" then some .descending
  else none

def ofValue (v : Value) : Except ValueFault Direction :=
  match v.str?.bind ofName? with
  | some d => .ok d
  | none => .error (.badDirection v)

def check : Value → Checked Direction
  | .str s =>
    match ofValue (.str s) with
    | .ok d => .ok d
    | .error f => problem (.rule f.message)
  | v => oneOf choices v

end Direction

structure SortKey where
  field : String
  direction : Direction
  deriving DecidableEq

/-- A query. Only a text can be searched; a value of another kind that was given for one is kept. -/
structure Query where
  take : Nat
  skip : Nat
  sort : List SortKey
  filter : Option Filter
  search : Value
  withCount : Bool
  deriving DecidableEq

namespace SortKey

/-- A field to order by from its entries. -/
def ofRecord (r : Record) : Checked SortKey :=
  (both (member r (.plain "field") text)
    (memberOr r (.plain "direction") .ascending Direction.check)).map fun (field, direction) =>
      { field, direction }

/-- A field to order by from a value. -/
def ofValue (v : Value) : Checked SortKey := structureOf "SortField" v >>= ofRecord

/-- A field to order by as a value. -/
def toValue (k : SortKey) : Value :=
  .dict [("field", .str k.field), ("direction", .str k.direction.name)]

/-- The fields to order by from a list. -/
def listOfValue (v : Value) : Checked (List SortKey) := do
  let vs ← items .notList v
  sequence 0 (vs.map ofValue)

def orderOfValue (v : Value) : Checked (List SortKey) := do
  let r ← structureOf "RestSort" v
  memberOr r (.plain "fields") [] listOfValue

end SortKey

namespace Query

def everything : Query := ⟨0, 0, [], none, .null, false⟩

def count (v : Value) : Checked Nat := (integer v).map Int.toNat

def searchKey : Key := ⟨"smartFilter", "smart_filter"⟩

/-- The key of the mark that the number of records is wanted. -/
def withCountKey : Key := ⟨"withCount", "with_count"⟩

def ofRecord (r : Record) : Checked Query :=
  (both (memberOr r (.plain "take") 0 count)
    (both (memberOr r (.plain "skip") 0 count)
    (both (memberOr r (.plain "sort") [] SortKey.orderOfValue)
    (both (memberOr r (.plain "filter") none (nullable Filter.ofValue))
    (both (memberOr r searchKey none (nullable text))
      (memberOr r withCountKey false truth)))))).map
    fun (take, skip, sort, filter, search, withCount) =>
      { take, skip, sort, filter, search := optionalText search, withCount }

def ofValue (v : Value) : Checked Query := structureOf "RestParameters" v >>= ofRecord

/-- The filter and the search together, in some fields. -/
def combine (filter : Option Filter) (search : Value) (fields : List Field) :
    Except Fault (Option Filter) := do
  let found ← match search.str? with
    | some text => Search.filterIn text fields
    | none => .ok none
  match filter, found with
  | some f, some g => .ok (some (.group .all [some f, some g]))
  | some f, none => .ok (some f)
  | none, g => .ok g

/-- What a query filters by in some fields. -/
def condition (q : Query) (fields : List Field) : Except Fault (Option Filter) :=
  combine q.filter q.search fields

/-- Whether two queries agree in every part, where values agree as `same` says. -/
def agrees (same : Value → Value → Bool) (p q : Query) : Bool :=
  p.take == q.take && p.skip == q.skip && p.sort == q.sort &&
    (match p.filter, q.filter with
      | some f, some g => f.agrees same g
      | none, none => true
      | _, _ => false) &&
    same p.search q.search && p.withCount == q.withCount

end Query

end Rowgate
