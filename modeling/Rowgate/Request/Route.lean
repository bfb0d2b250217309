import Rowgate.Text.Case
import Rowgate.Text.Pieces

/-!
# Routes

A path is a list of segments; empty ones do not count. Under the root of a gateway lie the list of
its entities, the records of each entity, and the metadata of each entity. The root is matched in
any letter case, and so are the names of entities, which may also be written without their
separators.
-/

namespace Rowgate

def segments (path : String) : List String :=
  ((Text.splitAtChar '/' path.toList).filter fun piece => !piece.isEmpty).map String.ofList

/-- The last segment of a path to metadata. -/
def metadataSegment : String := "$metadata"

def asksMetadata (path : String) : Bool := (segments path).getLast? == some metadataSegment

/-- What a path under a root leads to. -/
inductive Route
  /-- The list of all entities. -/
  | entities
  /-- The metadata of an entity. -/
  | metadata (name : String)
  /-- The records of an entity. -/
  | records (name : String)
  deriving DecidableEq

namespace Route

/-- The route of the segments below a root. -/
def ofRest? (rest : List String) : Option Route :=
  match rest with
  | [s] => some (if s = metadataSegment then .entities else .records s)
  | [s, t] => if t = metadataSegment then some (.metadata s) else none
  | _ => none

/-- The route of a path under a root. -/
def ofPath? (root : List String) (path : String) : Option Route :=
  let parts := segments path
  if (parts.take root.length).map Text.lowercase = root.map Text.lowercase then
    ofRest? (parts.drop root.length)
  else none

end Route

/-! ## Names of entities -/

def stripSeparators (name : String) : String :=
  String.ofList (name.toList.filter fun c => c ≠ '-' ∧ c ≠ '_')

/-- What a name stands for among things with names: the first whose name it is in any letter case,
or else the first whose name without separators it is. -/
def resolve {α : Type} (nameOf : α → String) (xs : List α) (wanted : String) : Option α :=
  let small := Text.lowercase wanted
  (xs.find? fun x => Text.lowercase (nameOf x) == small).orElse fun _ =>
    xs.find? fun x => Text.lowercase (stripSeparators (nameOf x)) == small

end Rowgate
