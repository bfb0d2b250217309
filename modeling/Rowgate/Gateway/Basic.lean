import Rowgate.Cache.Basic
import Rowgate.Gateway.Backend
import Rowgate.Query.Reader
import Rowgate.Request.Fields
import Rowgate.Request.Route

/-!
# Gateways

A gateway serves the entities of one backend under one root path. It answers a request that it can
serve and leaves all others to whoever comes after it. Faults that are the client's own are
answered; any other fault goes to the caller.

What the backend serves is discovered through a cache, so a gateway sees a new entity only once its
cache has to discover again.
-/

namespace Rowgate

/-- What gateways know of backends. -/
abbrev ResourceCache := Cache (List Resource)

/-- All that gateways work on: the backends and the caches. -/
structure Premises where
  site : Site
  caches : List ResourceCache

/-- A gateway to a backend, and the cache that it uses. -/
structure Gateway where
  root : List String
  spelling : Spelling
  backend : Nat
  cache : Nat

/-- How long a gateway relies on what it has discovered, in seconds, unless it is told otherwise. -/
def defaultTtl : Int := 600

namespace Premises

def onSite {α : Type} (work : Work Site α) : Work Premises α :=
  work.onPart Premises.site fun p site => { p with site }

def changeCache (cache : Nat) (f : ResourceCache → ResourceCache) : Work Premises Unit :=
  Work.change fun p => { p with caches := p.caches.modify cache f }

def store (cache : Nat) (key : String) (found : List Resource) : Work Premises Unit := do
  let p ← Work.state
  match p.caches[cache]? with
  | some c => do
    let c ← Work.ofResult (c.store key found)
    changeCache cache fun _ => c
  | none => return ()

/-- Opens a gateway. A cache that is given is used only if there is something in it; otherwise the
gateway gets a cache of its own. -/
def openGateway (p : Premises) (root : String) (spelling : Spelling) (backend : Nat) (ttl : Binary64)
    (given : Option Nat) : Premises × Gateway :=
  let used := given.filter fun i => (p.caches[i]?).any fun c => !c.isEmpty
  match used with
  | some i => (p, ⟨segments root, spelling, backend, i⟩)
  | none =>
    ({ p with caches := p.caches ++ [Cache.empty ttl] },
      ⟨segments root, spelling, backend, p.caches.length⟩)

end Premises

namespace Gateway

/-- The name of the backend, which is the key of what is known of it. -/
def key (g : Gateway) (p : Premises) : String :=
  match p.site[g.backend]? with
  | some b => b.name
  | none => ""

/-- Discovers what the backend serves and lets the cache know. -/
def refresh (g : Gateway) (key : String) : Work Premises (List Resource) := do
  let found ← Premises.onSite (discover g.backend)
  Premises.store g.cache key found
  Work.ofTraced ⟨[Cache.loadedEntry key found.length (.whole 0)], .ok ()⟩
  return found

/-- What the backend serves, as far as is known. -/
def resources (g : Gateway) : Work Premises (List Resource) := do
  let p ← Work.state
  let key := g.key p
  match (p.caches[g.cache]?).bind fun c => c.fresh? key with
  | some found =>
    Premises.store g.cache key found
    Work.ofTraced ⟨[Cache.hitEntry key], .ok ()⟩
    return found
  | none => g.refresh key

/-- The message about a name that was looked up. -/
def resolved (name : String) (found : Option Resource) : String :=
  "Resolved entity " ++ Text.quoted name ++ " to " ++
    match found with
    | some r => r.entity.name
    | none => "None"

def find (g : Gateway) (name : String) : Work Premises (Option Resource) := do
  let all ← g.resources
  let found := resolve (fun r => r.entity.name) all name
  Work.note .requests .debug (resolved name found)
  return found

/-- Whether a gateway can answer requests for a path. -/
def canServe (g : Gateway) (path : String) : Work Premises Bool := do
  match Route.ofPath? g.root path with
  | none => return false
  | some .entities => return true
  | some (.metadata name) => return (← g.find name).isSome
  | some (.records name) => return (← g.find name).isSome

def respond (status : Nat) (v : Value) : Work Premises Response :=
  Work.ofResult (Response.ofValue status v)

/-- The response to a write that changes or removes a record. -/
def respondFindings (findings : List Finding) : Work Premises Response :=
  if findings.isEmpty then return .done
  else respond 400 (.list (findings.map fun f => .dict f.toRecord))

/-- What a write says, read from its body; it has to say something. -/
def fieldsOf (method : Method) (resource : Resource) (body : Body) : Work Premises Record := do
  let object ← Work.ofResult body.decode
  let fields ← Work.ofTraced (resource.entity.fieldsIn method object)
  if fields.isEmpty then Work.fail (Body.fault "No entity field found in the body")
  else return fields

def serve (method : Method) (resource : Resource) (r : Request) : Work Premises Response := do
  match method with
  | .get =>
    let q ← Work.ofResult (Query.ofText r.query)
    let page ← Premises.onSite (resource.fetch (q.getD .everything))
    respond 200 (.dict page.toRecord)
  | .post =>
    let fields ← fieldsOf method resource r.body
    let key ← Premises.onSite (resource.insert fields)
    respond 200 (.dict key)
  | .delete =>
    let fields ← fieldsOf method resource r.body
    let findings ← Premises.onSite (resource.delete fields)
    respondFindings findings
  | .put | .patch =>
    let fields ← fieldsOf method resource r.body
    let findings ← Premises.onSite (resource.update fields)
    respondFindings findings

/-- Answers faults that are the client's own. -/
def answering (work : Work Premises Response) : Work Premises Response := do
  match ← work.attempt with
  | .ok response => return response
  | .error f =>
    match f.status? with
    | some status => respond status (.dict f.body)
    | none => Work.fail f

/-- The message about a write to what is read-only. -/
def unhandled (method : Method) (e : Entity) : String :=
  method.name ++ " on read-only entity " ++ e.name ++ " left unhandled"

/-- Serves the records of a resource, unless the method is unknown or may not be used. -/
def offer (resource : Resource) (r : Request) : Work Premises (Option Response) := do
  match Method.ofName? r.method with
  | none => return none
  | some method =>
    if method.isWrite && resource.readOnly then
      Work.note .requests .warning (unhandled method resource.entity)
      return none
    else
      let response ← answering (serve method resource r)
      return some response

/-- Answers a request, or leaves it to others. -/
def handle (g : Gateway) (r : Request) : Work Premises (Option Response) := do
  match Route.ofPath? g.root r.path with
  | none => return none
  | some .entities =>
    let all ← g.resources
    let response ← respond 200 (.list (all.map fun x => .dict (x.entity.summary g.spelling)))
    return some response
  | some (.metadata name) =>
    match ← g.find name with
    | none => return none
    | some resource =>
      let response ← respond 200 (.dict (resource.entity.toRecord g.spelling))
      return some response
  | some (.records name) =>
    match ← g.find name with
    | none => return none
    | some resource => offer resource r

end Gateway

end Rowgate
