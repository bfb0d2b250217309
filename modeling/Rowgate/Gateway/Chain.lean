import Rowgate.Gateway.Basic

/-!
# Chains

A chain offers a request to its gateways in turn. The first one that answers is the last one that is
asked, and so is one that fails. A request that none of them answers goes to the application behind
the chain.
-/

namespace Rowgate

inductive ChainAnswer
  | response (r : Response)
  /-- The application is asked. -/
  | passed

/-- A response as it is sent: the content, which may be empty, and its type, if there is any. -/
structure Delivery where
  status : Nat
  content : String
  type : Option String

/-- The headers of a response: the length of the content in octets, and its type. -/
def Delivery.headers (d : Delivery) : List (String × String) :=
  ("content-length", toString d.content.utf8ByteSize) ::
    match d.type with
    | some type => [("content-type", type)]
    | none => []

/-- What is sent for the answer of a chain, where the application would send `next`. -/
def ChainAnswer.delivery (next : Delivery) : ChainAnswer → Delivery
  | .passed => next
  | .response r => ⟨r.status, r.content.getD "", r.content.map fun _ => Response.contentType⟩

namespace Gateway

def failed (r : Request) : String := "Handler failed for " ++ r.method ++ " " ++ r.path

/-- Asks a gateway, and tells if it fails. -/
def handleLoudly (g : Gateway) (r : Request) : Work Premises (Option Response) := do
  match ← (g.handle r).attempt with
  | .ok response => return response
  | .error f => do
    Work.note .chain .error (failed r)
    Work.fail f

end Gateway

/-- Offers a request to some gateways in turn. -/
def offerInTurn (r : Request) : List Gateway → Work Premises ChainAnswer
  | [] => return .passed
  | g :: gs => do
    match ← g.handleLoudly r with
    | some response => return .response response
    | none => offerInTurn r gs

end Rowgate
