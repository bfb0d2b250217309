import Rowgate.Entity.Basic
import Rowgate.Fault
import Rowgate.Sql.Dialect

/-!
# Tables

The table of an entity has one column for each field, in the same order, with the type in which the
values of the field are stored. Columns have names, and different ones.
-/

namespace Rowgate.Sql

inductive ColumnType
  | integer
  | numeric (digits : Option (Int × Int))
  | date
  | dateTime
  | time
  | octets
  | text (length : Option Int)
  deriving DecidableEq

namespace ColumnType

/-- The size of a field if it sets a limit. -/
def limit? (size : Int) : Option Int := if size = 0 then none else some size

/-- The type of the column of a field. -/
def ofField (f : Field) : ColumnType :=
  match f.kind with
  | .string => .text (limit? f.size)
  | .numeric =>
    if f.scale = 0 then .integer else .numeric ((limit? f.size).map fun size => (size, f.scale))
  | .date => .date
  | .dateTime => .dateTime
  | .time => .time
  | .byteArray => .octets

def name : ColumnType → String
  | .integer => "INTEGER"
  | .numeric none => "NUMERIC"
  | .numeric (some (size, scale)) =>
    "NUMERIC(" ++ toString size ++ ", " ++ toString scale ++ ")"
  | .date => "DATE"
  | .dateTime => "DATETIME"
  | .time => "TIME"
  | .octets => "BLOB"
  | .text none => "VARCHAR"
  | .text (some length) => "VARCHAR(" ++ toString length ++ ")"

/-- Whether the values of a type are texts. -/
def isText : ColumnType → Bool
  | .text _ => true
  | _ => false

end ColumnType

structure Column where
  name : String
  type : ColumnType
  isKey : Bool
  deriving DecidableEq

def Column.ofField (f : Field) : Column := ⟨f.name, .ofField f, f.isKey⟩

/-- A table of a schema, if it is in one. -/
structure Table where
  schema : Option String
  name : String
  columns : List Column
  deriving DecidableEq

namespace Table

/-- What is wrong with a list of columns after columns of the names given: the first column that has
no name or a name that is taken. -/
def columnFault? (taken : List String) : List Column → Option Fault
  | [] => none
  | c :: cs =>
    if c.name.isEmpty then some .unnamedColumn
    else if taken.contains c.name then some .repeatedColumn
    else columnFault? (c.name :: taken) cs

def describing (schema : Option String) (e : Entity) : Table :=
  ⟨schema, e.name, e.fields.map .ofField⟩

/-- The table of an entity, if its columns can make up a table. -/
def ofEntity (schema : Option String) (e : Entity) : Except Fault Table :=
  let t := describing schema e
  match columnFault? [] t.columns with
  | some f => .error f
  | none => .ok t

def column? (t : Table) (name : String) : Option Column := t.columns.find? (·.name == name)

def keyColumns (t : Table) : List Column := t.columns.filter (·.isKey)

/-- The name of the table with the name of its schema before it. -/
def fullName (t : Table) : String :=
  match t.schema with
  | some schema => schema ++ "." ++ t.name
  | none => t.name

/-- The table as it stands in a statement: an empty schema is not written. -/
def path (d : Dialect) (t : Table) : String :=
  match t.schema with
  | some schema =>
    if schema.isEmpty then d.spell t.name else d.spell schema ++ "." ++ d.spell t.name
  | none => d.spell t.name

/-- A column as it stands in a statement, with its table before it. -/
def columnPath (d : Dialect) (t : Table) (c : Column) : String :=
  t.path d ++ "." ++ d.spell c.name

end Table

end Rowgate.Sql
