import Rowgate.Value.Basic

/-!
# Entities

An entity is a resource with records: a table, a view or an indexed file. Its metadata name the
fields of its records, say what each may hold, and mark the fields that make up the key of a record
and those that clients may not write.
-/

namespace Rowgate

inductive FieldKind
  | string
  | date
  | time
  | dateTime
  | numeric
  | byteArray
  deriving DecidableEq

namespace FieldKind

/-- Every kind, in the order in which the kinds are listed. -/
def all : List FieldKind := [.string, .date, .time, .dateTime, .numeric, .byteArray]

def name : FieldKind → String
  | .string => "String"
  | .date => "Date"
  | .time => "Time"
  | .dateTime => "DateTime"
  | .numeric => "Numeric"
  | .byteArray => "ByteArray"

end FieldKind

structure Field where
  name : String
  description : Option String
  size : Int
  scale : Int
  kind : FieldKind
  required : Bool
  isKey : Bool
  readOnly : Bool
  deriving DecidableEq

structure Entity where
  name : String
  description : Option String
  readOnly : Bool
  fields : List Field
  deriving DecidableEq

namespace Entity

/-- The first field of a name. -/
def field? (e : Entity) (name : String) : Option Field := e.fields.find? (·.name == name)

/-- The fields of the key, in the order of the metadata. -/
def keyFields (e : Entity) : List Field := e.fields.filter (·.isKey)

/-- The names of the fields of the key. -/
def keyNames (e : Entity) : List String := e.keyFields.map (·.name)

end Entity

/-- The field that a name stands for: if a name is used twice, the last field of it. -/
def fieldNamed? (fields : List Field) (name : String) : Option Field :=
  fields.reverse.find? (·.name == name)

/-- Whether a value is compared as text if it belongs to the field: unknown fields may hold any. -/
def isTextual (field : Option Field) : Bool :=
  match field with
  | some f => f.kind == .string
  | none => true

end Rowgate
