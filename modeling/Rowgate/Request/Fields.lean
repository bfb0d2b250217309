import Rowgate.Entity.Coerce
import Rowgate.Log
import Rowgate.Request.Basic

/-!
# Fields of a body

What a write says of the fields of an entity. Members of the body that are no fields do not matter,
and a member that has no form of its field is left out, as if it had not been sent. A request that
replaces a record sets to null the fields that the body leaves out.
-/

namespace Rowgate

/-- The message about a member that is left out. -/
def dropping (e : Entity) (f : Field) (fault : ValueFault) : String :=
  "Dropping field " ++ f.name ++ " of " ++ e.name ++ ": " ++ fault.message

/-- What a body says of a field: a value, nothing, or something that is left out. -/
def fieldOfBody (body : Record) (replaces : Bool) (e : Entity) (f : Field) :
    Traced (Option Value) :=
  match Record.field? body f.name with
  | none => return if replaces then some .null else none
  | some v =>
    match f.coerce v with
    | .ok v => return some v
    | .error fault => do
      Traced.note .requests .debug (dropping e f fault)
      return none

/-- What a body says of some fields, after what it said of others. -/
def fieldsOfBody (body : Record) (replaces : Bool) (e : Entity) (said : Record) :
    List Field → Traced Record
  | [] => return said
  | f :: fs => do
    match ← fieldOfBody body replaces e f with
    | some v => fieldsOfBody body replaces e (Record.set said f.name v) fs
    | none => fieldsOfBody body replaces e said fs

/-- What the body of a write says of the fields of an entity. -/
def Entity.fieldsIn (e : Entity) (method : Method) (body : Record) : Traced Record :=
  fieldsOfBody body (method == .put) e [] e.fields

end Rowgate
