import Rowgate.Sql.Service

/-!
# Catalogs

The catalog of a schema says which tables and views there are. Each becomes an entity. A view is
read-only, and so is a table without a key, since no write could name its row. A column whose values
the database makes is read-only, and a column is required if it takes no null and nothing else fills
it.
-/

namespace Rowgate.Sql

/-- The type of a column as the catalog tells it. -/
inductive DeclaredType
  | dateTime
  | date
  | time
  | integer
  | float
  | numeric (precision scale : Option Int)
  | octets (length : Option Int)
  | text (length : Option Int)
  | other

namespace DeclaredType

/-- How many decimal places the values of binary floating point columns may have. -/
def floatScale : Int := 15

/-- The kind, the size and the scale of the field of a column. -/
def shape : DeclaredType → FieldKind × Int × Int
  | .dateTime => (.dateTime, 0, 0)
  | .date => (.date, 0, 0)
  | .time => (.time, 0, 0)
  | .integer => (.numeric, 0, 0)
  | .float => (.numeric, 0, floatScale)
  | .numeric precision scale => (.numeric, precision.getD 0, scale.getD 0)
  | .octets length => (.byteArray, length.getD 0, 0)
  | .text length => (.string, length.getD 0, 0)
  | .other => (.string, 0, 0)

def momentNames : List (String × DeclaredType) := [
  ("DateTime", .dateTime), ("DATETIME", .dateTime), ("TIMESTAMP", .dateTime), ("Date", .date),
  ("DATE", .date), ("Time", .time), ("TIME", .time)]

/-- Names of types of numbers without a precision. -/
def numberNames : List (String × DeclaredType) := [
  ("Integer", .integer), ("INTEGER", .integer), ("INT", .integer), ("SmallInteger", .integer),
  ("SMALLINT", .integer), ("BigInteger", .integer), ("BIGINT", .integer), ("Boolean", .integer),
  ("BOOLEAN", .integer), ("Float", .float), ("FLOAT", .float), ("REAL", .float),
  ("Double", .float), ("DOUBLE", .float), ("DOUBLE_PRECISION", .float)]

def textNames : List String := [
  "String", "Text", "TEXT", "Unicode", "UnicodeText", "VARCHAR", "NVARCHAR", "CHAR", "NCHAR",
  "CLOB", "Enum"]

/-- The type that a name stands for, with the size and the scale that go with it. -/
def ofName (name : String) (size scale : Option Int) : DeclaredType :=
  if name = "Numeric" ∨ name = "NUMERIC" ∨ name = "DECIMAL" then .numeric size scale
  else if name = "LargeBinary" ∨ name = "BLOB" then .octets size
  else if textNames.contains name then .text size
  else ((momentNames ++ numberNames).lookup name).getD .other

end DeclaredType

structure CatalogColumn where
  name : String
  type : DeclaredType
  nullable : Bool
  hasDefault : Bool
  comment : Option String
  /-- Whether the values are computed from others. -/
  computed : Bool
  /-- Whether the values are numbered by the database. -/
  identity : Bool

/-- A table or a view of the catalog; the key may be missing. -/
structure CatalogTable where
  name : String
  key : List String
  comment : Option String
  columns : List CatalogColumn

structure Catalog where
  tables : List CatalogTable
  views : List CatalogTable

namespace CatalogColumn

/-- Whether the database makes the values of a column. -/
def isGenerated (c : CatalogColumn) : Bool := c.computed || c.identity

/-- The field of a column in a table with a key. -/
def field (key : List String) (c : CatalogColumn) : Field :=
  let (kind, size, scale) := c.type.shape
  { name := c.name, description := c.comment, size, scale, kind
    required := !c.nullable && !c.hasDefault && !c.isGenerated
    isKey := key.contains c.name, readOnly := c.isGenerated }

end CatalogColumn

/-- The entity of a table or a view. -/
def CatalogTable.entity (isView : Bool) (t : CatalogTable) : Entity where
  name := t.name
  description := t.comment
  readOnly := isView || t.key.isEmpty
  fields := t.columns.map (CatalogColumn.field t.key)

namespace Catalog

/-- The views by name, each name once. -/
def sortedViews (c : Catalog) : List CatalogTable :=
  (c.views.eraseDupsBy fun v w => v.name == w.name).mergeSort fun v w =>
    Text.notAfter v.name w.name

/-- The entities of a catalog: the tables in the order of the catalog, then the views by name. -/
def entities (c : Catalog) : List Entity :=
  let isView (t : CatalogTable) : Bool := c.views.any (·.name == t.name)
  c.tables.map (fun t => t.entity (isView t)) ++ c.sortedViews.map (CatalogTable.entity true)

def reflected (count : Nat) (source : String) : String :=
  "Reflected " ++ toString count ++ " table(s) and view(s) from " ++ source

/-- Looks up the tables of a schema of a source and answers their services. -/
def discover (c : Catalog) (schema : Option String) (operators : List Operator) (source : String) :
    Dialogue (List TableService) := do
  Dialogue.inConnection (Dialogue.record (.inspect schema))
  Work.note .tables .debug (reflected c.entities.length source)
  Work.ofResult (c.entities.mapM (TableService.ofEntity schema operators))

end Catalog

end Rowgate.Sql
