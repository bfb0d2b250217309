import Rowgate.Service
import Rowgate.Sql.FilterClause
import Rowgate.Sql.Session

/-!
# Serving a table

The operations that clients may ask of a table. A page is read over a connection of its own; every
write is one transaction, and no statement is run before the request has been found sound.

A row is inserted only after its key has been looked up, if the request gives the key. Another
client may take the key between the two; then the database refuses the row, and a second look tells
whether it was the key.
-/

namespace Rowgate.Sql

structure TableService where
  entity : Entity
  table : Table
  operators : List Operator

namespace TableService

/-- The service of the table of an entity, if its fields can be columns. -/
def ofEntity (schema : Option String) (operators : List Operator) (e : Entity) :
    Except Fault TableService :=
  (Table.ofEntity schema e).map fun table => ⟨e, table, operators⟩

def scope (s : TableService) : ClauseScope := ⟨s.table, s.entity.fields, s.operators⟩

def execute (s : TableService) (command : Command) : Dialogue Answer :=
  Dialogue.execute ⟨s.table, command⟩

/-! ## Fetching -/

/-- The columns to order by that the table has; others are passed over. -/
def orderOf (t : Table) : List SortKey → Traced Order
  | [] => return []
  | k :: ks =>
    match t.column? k.field with
    | none => do
      Traced.note .tables .debug ("Ignoring sort on unknown field " ++ k.field)
      orderOf t ks
    | some c => do
      let rest ← orderOf t ks
      return (c, k.direction) :: rest

def conditionOf (s : TableService) (q : Query) : Except Fault (Option Clause) := do
  let filter ← q.condition s.entity.fields
  Clause.ofFilterIfAny s.scope filter

/-- The statement for the page of a query. -/
def pageOf (s : TableService) (q : Query) : Traced PageSelection := do
  let condition ← Traced.ofResult (s.conditionOf q)
  let order ← orderOf s.table q.sort
  match s.table.columns with
  | [] => Traced.fail .noColumns
  | first :: _ => return ⟨condition, first, order, q.skip, q.take⟩

def fetching (s : TableService) (p : PageSelection) : String :=
  "Fetch " ++ s.entity.name ++ ": " ++
    (Statement.fragment .standard ⟨s.table, .page p⟩).sql

def recordsOf (e : Entity) (rows : List Record) : Except Fault (List Record) :=
  rows.mapM fun r => (e.coerce r).mapError .value

/-- Reads a page and, if it is asked for, the count. -/
def read (s : TableService) (p : PageSelection) (withCount : Bool) : Dialogue Page := do
  let answer ← s.execute (.page p)
  let records ← Work.ofResult (recordsOf s.entity answer.rows)
  if withCount then
    let answer ← s.execute (.count p.condition)
    return ⟨records, answer.scalar⟩
  else return ⟨records, 0⟩

def fetch (s : TableService) (q : Query) : Dialogue Page := do
  let page ← Work.ofTraced (s.pageOf q)
  Work.note .tables .debug (s.fetching page)
  Dialogue.inConnection (s.read page q.withCount)

/-! ## Writing -/

/-- Whether a field of a record may be written: read-only fields may not, and key fields only where
a row gets its key. -/
def isWritten (withKey : Bool) (r : Record) (f : Field) : Bool :=
  Record.has r f.name && !f.readOnly && (!f.isKey || (withKey && !(Record.field r f.name).isNull))

/-- The values of a record that may be written, in the order of the fields. -/
def written (e : Entity) (withKey : Bool) (r : Record) : Record :=
  (e.fields.filter (isWritten withKey r)).map fun f => (f.name, Record.field r f.name)

/-- Whether a row has the key of a record. -/
def keyTaken (s : TableService) (r : Record) : Dialogue Bool := do
  let answer ← s.execute (.keyCheck r)
  return !answer.rows.isEmpty

/-- The fault that a row has the key of a record. -/
def duplicate (s : TableService) (r : Record) : Fault :=
  .ofDuplicateKey s.entity.name (s.entity.keyRecord r)

/-- Inserts a row unless its key is looked up and taken. The result is the key that the database
tells. -/
def insertRow (s : TableService) (keyed : Bool) (r : Record) : Dialogue (Option (List Value)) := do
  if keyed then
    if ← s.keyTaken r then Work.fail (s.duplicate r)
  let answer ← s.execute (.insertion (written s.entity true r))
  return answer.insertedKey

/-- Finds out whether a refused row was refused for its key. -/
def explainRefusal (s : TableService) (r : Record) (text : String) :
    Dialogue (Option (List Value)) := do
  if ← Dialogue.inConnection (s.keyTaken r) then
    Work.note .tables .debug ("Insert into " ++ s.entity.name ++ " lost a key race: " ++ text)
    Work.fail (s.duplicate r)
  else Work.fail (.database (.integrity text))

/-- A value of the key of a new row: that of the record, or what the database tells in its place. -/
def keyValue (r : Record) (told : List Value) (place : Nat) (name : String) : Value :=
  match Record.field r name with
  | .null => (told[place]?).getD .null
  | v => v

/-- The key of a new row, by the names of the fields from a place on. -/
def keyFrom (r : Record) (told : List Value) (place : Nat) : List String → Record
  | [] => []
  | name :: names => (name, keyValue r told place name) :: keyFrom r told (place + 1) names

/-- Whether a record gives all of its key. -/
def isKeyed (e : Entity) (r : Record) : Bool := !e.keyNames.isEmpty && (e.missingKeys r).isEmpty

/-- Inserts a record. The result is its key, in which the database may have filled in values. -/
def insert (s : TableService) (r : Record) : Dialogue Record := do
  Work.ofTraced (ensureWritable .tables s.entity.readOnly s.entity "insert")
  let r ← Work.ofResult (s.entity.requested r)
  let keyed := isKeyed s.entity r
  let told ←
    match ← (Dialogue.inTransaction (s.insertRow keyed r)).attempt with
    | .ok told => pure told
    | .error (.database (.integrity text)) =>
      if keyed then s.explainRefusal r text else Work.fail (.database (.integrity text))
    | .error f => Work.fail f
  let key := Record.ofEntries (keyFrom r (told.getD []) 0 s.entity.keyNames)
  Work.note .tables .debug ((Value.dict key).describe ("Inserted " ++ s.entity.name ++ " ") "")
  return key

/-- Updates the row that has the key of a request. Without a value to write, the row is only looked
up. -/
def update (s : TableService) (r : Record) : Dialogue (List Finding) := do
  Work.ofTraced (ensureWritable .tables s.entity.readOnly s.entity "update")
  let r ← Work.ofResult (s.entity.requested r)
  let missing := s.entity.missingFindings r
  if missing.isEmpty then
    let values := written s.entity false r
    Dialogue.inTransaction do
      if values.isEmpty then return s.entity.findingsOf (← s.keyTaken r)
      else
        let answer ← s.execute (.change values r)
        return s.entity.findingsOf (answer.changed != 0)
  else return missing

/-- Deletes the row that has the key of a request. -/
def delete (s : TableService) (r : Record) : Dialogue (List Finding) := do
  Work.ofTraced (ensureWritable .tables s.entity.readOnly s.entity "delete")
  let r ← Work.ofResult (s.entity.requested r)
  let missing := s.entity.missingFindings r
  if missing.isEmpty then
    Dialogue.inTransaction do
      let answer ← s.execute (.removal r)
      return s.entity.findingsOf (answer.changed != 0)
  else return missing

end TableService

end Rowgate.Sql
