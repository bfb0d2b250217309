import Rowgate.Sql.Catalog
import Rowgate.Store.Service

/-!
# Backends

A backend keeps the records of entities: a set of files, the tables of a schema of a database, or
nothing, if it cannot be reached. What is served is found out by discovery, which answers one
resource for each entity. A resource knows where its records are; the records themselves stay in the
site, the set of all backends.
-/

namespace Rowgate

open Sql

/-- A set of files, and how they are served. -/
structure FileSet where
  files : List File
  operators : List Operator
  allMembers : Bool
  /-- How often the files have been listed. -/
  listings : Nat

/-- A schema of a database, and how its tables are served. -/
structure SchemaSource where
  schema : Option String
  catalog : Catalog
  operators : List Operator
  session : Session

/-- What keeps records. -/
inductive Storage
  | files (set : FileSet)
  | tables (source : SchemaSource)
  /-- Discovery fails. -/
  | unavailable (message : String)

/-- A named store of records. -/
structure Backend where
  name : String
  storage : Storage

/-- An entity and where its records are. -/
inductive Resource
  /-- The file at a place of a backend. -/
  | file (backend place : Nat) (entity : Entity)
  /-- A table of a backend. -/
  | table (backend : Nat) (service : TableService)

namespace Resource

def entity : Resource → Entity
  | .file _ _ e => e
  | .table _ s => s.entity

def readOnly (r : Resource) : Bool := r.entity.readOnly

end Resource

abbrev Site := List Backend

namespace Storage

def files? : Storage → Option FileSet
  | .files set => some set
  | _ => none

def tables? : Storage → Option SchemaSource
  | .tables source => some source
  | _ => none

end Storage

namespace Site

def files? (s : Site) (backend : Nat) : Option FileSet :=
  (s[backend]?).bind fun b => b.storage.files?

def tables? (s : Site) (backend : Nat) : Option SchemaSource :=
  (s[backend]?).bind fun b => b.storage.tables?

def setStorage (s : Site) (backend : Nat) (storage : Storage) : Site :=
  s.modify backend fun b => { b with storage }

/-- The file at a place of a backend. -/
def file? (s : Site) (backend place : Nat) : Option File :=
  (files? s backend).bind fun set => set.files[place]?

/-- Adds a file to a backend of files. -/
def addFile (s : Site) (backend : Nat) (f : File) : Site :=
  match files? s backend with
  | some set => setStorage s backend (.files { set with files := set.files ++ [f] })
  | none => s

/-- Lets every database go on in a session. -/
def withSession (s : Site) (session : Session) : Site :=
  s.map fun b =>
    match b.storage with
    | .tables source => { b with storage := .tables { source with session } }
    | _ => b

end Site

/-- The fault that a resource is of another site. -/
def foreignResource : Fault := .unavailable "resource is not of this site"

/-! ## Discovery -/

namespace FileSet

/-- The resources of the files of a backend. -/
def resources (set : FileSet) (backend : Nat) : List Resource :=
  set.files.mapIdx fun place f => .file backend place f.entity

/-- The set with one more listing. -/
def listed (set : FileSet) : FileSet := { set with listings := set.listings + 1 }

/-- The service of a file of the set. -/
def service (set : FileSet) (e : Entity) : FileService :=
  ⟨e.readOnly, set.operators, set.allMembers⟩

end FileSet

/-- Work on the session of the database of a backend. -/
def onSession {α : Type} (backend : Nat) (work : SchemaSource → Dialogue α) : Work Site α :=
  ⟨fun s =>
    match Site.tables? s backend with
    | none => (s, Traced.fail foreignResource)
    | some source =>
      let (session, outcome) := (work source).run source.session
      (Site.setStorage s backend (.tables { source with session }), outcome)⟩

/-- The resources of the tables of a backend. -/
def discoverTables (backend : Nat) (name : String) : Work Site (List Resource) := do
  let services ← onSession backend fun source =>
    source.catalog.discover source.schema source.operators name
  return services.map (.table backend)

def discover (backend : Nat) : Work Site (List Resource) := do
  let s ← Work.state
  match s[backend]? with
  | none => Work.fail foreignResource
  | some b =>
    match b.storage with
    | .unavailable message => Work.fail (.unavailable message)
    | .tables _ => discoverTables backend b.name
    | .files set => do
      Work.change fun s => Site.setStorage s backend (.files set.listed)
      return set.resources backend

/-! ## Operations -/

/-- Work on a file of a backend. The file that it leaves takes the place of the one that was there,
whatever the work comes to. -/
def onFile {α : Type} (backend place : Nat) (work : FileService → Work File α) : Work Site α :=
  ⟨fun s =>
    match Site.files? s backend, Site.file? s backend place with
    | some set, some f =>
      let (f, outcome) := (work (set.service f.entity)).run f
      (Site.setStorage s backend (.files { set with files := set.files.set place f }), outcome)
    | _, _ => (s, Traced.fail foreignResource)⟩

namespace Resource

/-- A page of the records of a resource. -/
def fetch (q : Query) : Resource → Work Site Page
  | .file b p _ => onFile b p fun s => do
    let f ← Work.state
    Work.ofTraced (s.fetch f q)
  | .table b t => onSession b fun _ => t.fetch q

def insert (r : Record) : Resource → Work Site Record
  | .file b p _ => onFile b p fun s => s.insert r
  | .table b t => onSession b fun _ => t.insert r

def update (r : Record) : Resource → Work Site (List Finding)
  | .file b p _ => onFile b p fun s => s.update r
  | .table b t => onSession b fun _ => t.update r

def delete (r : Record) : Resource → Work Site (List Finding)
  | .file b p _ => onFile b p fun s => s.delete r
  | .table b t => onSession b fun _ => t.delete r

end Resource

end Rowgate
