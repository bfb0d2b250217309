import Rowgate.Entity.Coerce
import Rowgate.Log

/-!
# Services

What every service of an entity has in common, whatever keeps the records: the pages that it
answers, the refusal to write what is read-only, and the reading of records that a client sends.
-/

namespace Rowgate

/-- Records of an entity, and how many there are beyond the page; zero if that was not asked. -/
structure Page where
  records : List Record
  count : Int
  deriving DecidableEq

def Page.toRecord (p : Page) : Record := [
  ("data", .list (p.records.map .dict)), ("count", .int p.count)]

/-- Refuses to write what is read-only. -/
def ensureWritable (channel : Channel) (readOnly : Bool) (e : Entity) (operation : String) :
    Traced Unit :=
  if readOnly then do
    Traced.note channel .warning ("Rejected " ++ operation ++ " on read-only entity " ++ e.name)
    Traced.fail (.readOnly e.name operation)
  else return ()

theorem result_ensureWritable (channel : Channel) (readOnly : Bool) (e : Entity)
    (operation : String) :
    (ensureWritable channel readOnly e operation).result =
      if readOnly then .error (.readOnly e.name operation) else .ok () := by
  cases readOnly <;> rfl

/-- What a write finds that has found its record or has not. -/
def Entity.findingsOf (e : Entity) (found : Bool) : List Finding := if found then [] else [.notFound e]

/-- A record of a request in the form of the fields. -/
def Entity.requested (e : Entity) (r : Record) : Except Fault Record :=
  (e.coerce r).mapError fun f => .ofMessages .request wholeRequest [f.message]

end Rowgate
