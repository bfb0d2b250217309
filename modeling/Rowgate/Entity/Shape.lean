import Rowgate.Entity.Basic
import Rowgate.Value.Shape

/-!
# Metadata as values

Metadata are given and answered as dictionaries. Their names are spelled in one word with inner
capitals or with underscores; both are read, and the reader of an answer chooses one.
-/

namespace Rowgate

open Shape

/-- How the names of metadata are spelled. -/
inductive Spelling
  | camel
  | snake
  deriving DecidableEq

/-- The names of metadata in both spellings. -/
def requiredKey : Key := ⟨"isRequired", "is_required"⟩

/-- The name of the mark of key fields. -/
def primaryKeyKey : Key := ⟨"isPrimaryKey", "is_primary_key"⟩

/-- The name of the mark of what may not be written. -/
def readOnlyKey : Key := ⟨"isReadOnly", "is_read_only"⟩

def Spelling.name (s : Spelling) (key : Key) : String :=
  match s with
  | .camel => key.preferred
  | .snake => key.other

/-! ## Reading -/

def Field.ofRecord (r : Record) : Checked Field :=
  (both (member r (.plain "name") text)
    (both (memberOr r (.plain "description") none (nullable text))
    (both (memberOr r (.plain "size") 0 integer)
    (both (memberOr r (.plain "scale") 0 integer)
    (both (memberOr r (.plain "type") .string (oneOf (FieldKind.all.map fun k => (k.name, k))))
    (both (memberOr r requiredKey false truth)
    (both (memberOr r primaryKeyKey false truth)
      (memberOr r readOnlyKey false truth)))))))).map
    fun (name, description, size, scale, kind, required, isKey, readOnly) =>
      { name, description, size, scale, kind, required, isKey, readOnly }

def Field.ofValue (v : Value) : Checked Field := structureOf "FieldMetadata" v >>= ofRecord

/-- The fields of an entity from a value. -/
def Field.listOfValue (v : Value) : Checked (List Field) := do
  let vs ← items .notTuple v
  sequence 0 (vs.map ofValue)

def Entity.ofRecord (r : Record) : Checked Entity :=
  (both (member r (.plain "name") text)
    (both (memberOr r (.plain "description") none (nullable text))
    (both (memberOr r readOnlyKey false truth)
      (memberOr r (.plain "fields") [] Field.listOfValue)))).map
    fun (name, description, readOnly, fields) => { name, description, readOnly, fields }

def Entity.ofValue (v : Value) : Checked Entity := structureOf "EntityMetadata" v >>= ofRecord

/-! ## Writing -/

def optionalText (s : Option String) : Value :=
  match s with
  | some s => .str s
  | none => .null

def Field.toRecord (s : Spelling) (f : Field) : Record := [
  ("name", .str f.name), ("description", optionalText f.description), ("size", .int f.size),
  ("scale", .int f.scale), ("type", .str f.kind.name), (s.name requiredKey, .bool f.required),
  (s.name primaryKeyKey, .bool f.isKey), (s.name readOnlyKey, .bool f.readOnly)]

/-- The short dictionary of an entity, used in lists of entities. -/
def Entity.summary (s : Spelling) (e : Entity) : Record := [
  ("name", .str e.name), ("description", optionalText e.description),
  (s.name readOnlyKey, .bool e.readOnly)]

def Entity.toRecord (s : Spelling) (e : Entity) : Record :=
  e.summary s ++ [("fields", .list (e.fields.map fun f => .dict (f.toRecord s)))]

end Rowgate
