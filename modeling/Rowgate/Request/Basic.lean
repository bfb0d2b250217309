import Rowgate.Request.Body
import Rowgate.Text.Case

/-!
# Requests and responses

A request has a method, a path, a query and a body. The methods that gateways know are the one that
reads and four that write. A response has a status and perhaps content, which is JSON.
-/

namespace Rowgate

inductive Method
  | get
  | post
  | put
  | patch
  | delete
  deriving DecidableEq

namespace Method

def all : List Method := [.get, .post, .put, .patch, .delete]

def name : Method → String
  | .get => "GET"
  | .post => "POST"
  | .put => "PUT"
  | .patch => "PATCH"
  | .delete => "DELETE"

/-- The method of a name, in any letter case. -/
def ofName? (s : String) : Option Method := all.find? fun m => Text.spellsCapitals s m.name

def isWrite : Method → Bool
  | .get => false
  | _ => true

end Method

structure Request where
  method : String
  path : String
  query : String
  body : Body

structure Response where
  status : Nat
  content : Option String
  deriving DecidableEq

namespace Response

def contentType : String := "application/json"

/-- The response that all went well and there is nothing to say. -/
def done : Response := ⟨200, none⟩

def ofValue (status : Nat) (v : Value) : Except Fault Response :=
  match Json.write v with
  | .ok s => .ok ⟨status, some s⟩
  | .error f => .error (Fault.ofWriteFault f)

end Response

namespace Fault

/-- The status of the response to a fault that is the client's own. -/
def status? : Fault → Option Nat
  | .duplicateKey .. => some 409
  | .invalid .. => some 400
  | .unknownOperator .. => some 400
  | _ => none

end Fault

end Rowgate
