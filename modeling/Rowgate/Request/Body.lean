import Rowgate.Log

/-!
# Request bodies

The body of a write is a JSON object. It comes as text, or as octets in one of the encodings of
Unicode, which the first octets tell.
-/

namespace Rowgate

inductive Body
  | absent
  | text (s : String)
  | octets (os : List UInt8)
  deriving DecidableEq

namespace Body

def isEmpty : Body → Bool
  | .absent => true
  | .text s => s.isEmpty
  | .octets os => os.isEmpty

def fault (message : String) : Fault := .ofMessages .body "body" [message]

/-- The message about a body that is no JSON text. -/
def malformed (reason : String) : Fault := fault ("Invalid JSON: " ++ reason)

def read : Body → Except Fault Value
  | .absent => .error (fault "Request body is empty")
  | .text s => (Json.read s.toList).mapError (Fault.ofRefusal malformed)
  | .octets os =>
    match decodeBody (os.map UInt8.toNat) with
    | .ok cs => (Json.readDecoded cs).mapError (Fault.ofRefusal malformed)
    | .error f => .error (malformed f.message)

def decode (b : Body) : Except Fault Record :=
  if b.isEmpty then .error (fault "Request body is empty")
  else do
    match ← b.read with
    | .dict entries => .ok entries
    | _ => .error (fault "Expected a JSON object")

end Body

end Rowgate
