import Rowgate.Query.Reader

/-!
# Writing queries

A query is written as a query string with the parts that differ from the query for everything, in a
fixed order. Filter and order are written as JSON. The query for the page that follows skips what
was taken.
-/

namespace Rowgate.Query

def countText (n : Nat) : Except Fault String :=
  (integerText n).mapError fun f => .value (.integer f)

def jsonText (v : Value) : Except Fault String :=
  (Json.write v).mapError Fault.ofWriteFault

def searchText (v : Value) : Except Fault String :=
  v.plainText.mapError fun f => .value (.integer f)

/-- A part with its text, if there is anything to say. -/
def partIf (present : Bool) (part : QueryPart) (text : Except Fault String) :
    Except Fault (List (String × String)) :=
  if present then text.map fun s => [(part.name, s)] else .ok []

/-- The named parts of a query with their texts. -/
def toPairs (q : Query) : Except Fault (List (String × String)) := do
  let sort ← partIf (!q.sort.isEmpty) .sort (jsonText (.list (q.sort.map SortKey.toValue)))
  let filter ← match q.filter with
    | some f => partIf true .filter (jsonText f.toValue)
    | none => .ok []
  let take ← partIf (q.take != 0) .take (countText q.take)
  let skip ← partIf (q.skip != 0) .skip (countText q.skip)
  let search ← partIf q.search.isTrue .search (searchText q.search)
  .ok (take ++ skip ++ (if q.withCount then [(QueryPart.withCount.name, "true")] else []) ++ sort ++
    filter ++ search)

def toText (q : Query) : Except Fault String := do
  match Form.encodePairs (← q.toPairs) with
  | .ok cs => .ok (String.ofList cs)
  | .error halves => .error (.noOctets halves)

/-- The query for the page that follows. -/
def next (q : Query) : Query := { q with skip := q.skip + q.take }

/-- The query string for the page that follows, if there are pages at all. -/
def nextText (q : Query) : Except Fault (Option String) :=
  if q.take = 0 then .ok none else q.next.toText.map some

end Rowgate.Query
