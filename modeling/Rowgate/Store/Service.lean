import Rowgate.Service
import Rowgate.Store.File
import Rowgate.Store.Predicate

/-!
# Serving a file

The operations that clients may ask of a file: fetching a page of records, inserting, updating and
deleting one. A write is refused if the file is read-only; it names its record by the key fields,
and a request that lacks one of them, or names no record, is answered with findings instead.

A page without an order is cut from the scan as it runs, so no more records are drawn than the page
needs, unless all of them have to be counted.
-/

namespace Rowgate

/-- An outcome, and how many records were drawn from a scan for it. -/
structure Drawn (α : Type) where
  count : Nat
  result : Except Fault α

namespace Drawn

/-- The outcome of a step that draws one more record first. -/
def oneMore {α : Type} (d : Drawn α) : Drawn α := { d with count := d.count + 1 }

def map {α β : Type} (f : α → β) (d : Drawn α) : Drawn β := ⟨d.count, d.result.map f⟩

end Drawn

structure FileService where
  readOnly : Bool
  operators : List Operator
  allMembers : Bool

namespace FileService

def scope (s : FileService) (e : Entity) : FilterScope := ⟨e.fields, s.operators, s.allMembers⟩

/-! ## Fetching -/

/-- Cuts a page from the records of a scan: `matched` records have passed so far, and `kept` of them
are on the page. The result has the rest of the page and the number of all that passed. -/
def cut (e : Entity) (p : Predicate) (q : Query) (matched kept : Nat) :
    List Record → Drawn (List Record × Nat)
  | [] => ⟨0, .ok ([], matched)⟩
  | r :: rs =>
    match p.accepts r with
    | .error f => ⟨1, .error f⟩
    | .ok false => (cut e p q matched kept rs).oneMore
    | .ok true =>
      if matched + 1 ≤ q.skip then (cut e p q (matched + 1) kept rs).oneMore
      else if q.take = 0 ∨ kept < q.take then
        ((cut e p q (matched + 1) (kept + 1) rs).map fun (page, n) =>
          (e.project r :: page, n)).oneMore
      else if q.withCount then (cut e p q (matched + 1) kept rs).oneMore
      else ⟨1, .ok ([], matched + 1)⟩

/-- The records of a scan that satisfy a predicate. -/
def select (p : Predicate) : List Record → Drawn (List Record)
  | [] => ⟨0, .ok []⟩
  | r :: rs =>
    match p.accepts r with
    | .error f => ⟨1, .error f⟩
    | .ok true => ((select p rs).map (r :: ·)).oneMore
    | .ok false => (select p rs).oneMore

/-- The records of a page among all that passed. -/
def slice (q : Query) (records : List Record) : List Record :=
  let rest := records.drop q.skip
  if q.take = 0 then rest else rest.take q.take

/-- The count of a page, if it was asked for. -/
def countIf (q : Query) (n : Nat) : Nat := if q.withCount then n else 0

/-- A page in the order of the scan. -/
def streamed (e : Entity) (p : Predicate) (q : Query) (scan : List Record) : Drawn Page :=
  (cut e p q 0 0 scan).map fun (page, n) => ⟨page, countIf q n⟩

/-- A page in the order of the query, from the records that passed. -/
def sorted (e : Entity) (q : Query) (passed : List Record) : Traced Page := do
  let records ← sortRecords e.fields q.sort passed
  return ⟨(slice q records).map e.project, countIf q passed.length⟩

def fetched (e : Entity) (p : Page) : String :=
  "Fetched " ++ toString p.records.length ++ " record(s) from " ++ e.name ++ " (count=" ++
    toString p.count ++ ")"

/-- A page of the records that a compiled filter accepts, and how many records were drawn. -/
def fetchWith (f : File) (q : Query) (p : Predicate) : Nat × Traced Page :=
  match f.scan with
  | .error e => (0, Traced.fail e)
  | .ok scan =>
    if q.sort.isEmpty then
      let page := streamed f.entity p q scan
      (page.count, Traced.ofResult page.result)
    else
      let passed := select p scan
      (passed.count, do
        let records ← Traced.ofResult passed.result
        sorted f.entity q records)

def compile (s : FileService) (e : Entity) (q : Query) : Traced Predicate := do
  let filter ← Traced.ofResult (q.condition e.fields)
  Predicate.ofFilterIfAny (s.scope e) filter

/-- A page of a file, and how many records were drawn for it. -/
def fetchCounting (s : FileService) (f : File) (q : Query) : Nat × Traced Page :=
  let compiled := s.compile f.entity q
  match compiled.result with
  | .error e => (0, ⟨compiled.log, .error e⟩)
  | .ok p =>
    let (drawn, page) := fetchWith f q p
    (drawn, do
      let _ ← compiled
      let page ← page
      Traced.note .files .debug (fetched f.entity page)
      return page)

def fetch (s : FileService) (f : File) (q : Query) : Traced Page := (s.fetchCounting f q).2

/-! ## Writing -/

/-- The fault of an insertion without all of its key. -/
def lacksKey (missing : List Finding) : Fault :=
  let parts := (missing.flatMap fun m => m.members.map fun name => (name, m.message)).eraseDups
  .invalid .request (parts.map fun (name, message) => (name, Messages.ofTexts [message]))

/-- A stored record with the new values of a request, key fields and read-only fields apart. -/
def merge (fields : List Field) (stored r : Record) : Record :=
  match fields with
  | [] => stored
  | f :: fs =>
    match Record.field? r f.name with
    | some v => merge fs (if f.isKey || f.readOnly then stored else Record.set stored f.name v) r
    | none => merge fs stored r

/-- A write about the record that has the key of a request: what `go` does, once the request has the
form of the fields and all of the key, or else what `lacking` says. -/
def keyedWrite {α : Type} (s : FileService) (operation : String)
    (lacking : List Finding → Except Fault α) (go : Record → Work File α) (r : Record) :
    Work File α := do
  let f ← Work.state
  Work.ofTraced (ensureWritable .files s.readOnly f.entity operation)
  let r ← Work.ofResult (f.entity.requested r)
  let missing := f.entity.missingFindings r
  if missing.isEmpty then go r else Work.ofResult (lacking missing)

/-- Inserts a record that has all of its key, and answers the key. -/
def insertKeyed (r : Record) : Work File Record := do
  let f ← Work.state
  match ← Work.ofResult (f.read (f.keyOf r)) with
  | some _ => Work.fail (.ofDuplicateKey f.entity.name (f.entity.keyRecord r))
  | none => do
    File.write (f.entity.project r)
    return f.entity.keyRecord r

/-- Updates the record with the key of another. -/
def updateKeyed (r : Record) : Work File (List Finding) := do
  let f ← Work.state
  match ← Work.ofResult (f.read (f.keyOf r)) with
  | none => return f.entity.findingsOf false
  | some stored => do
    let found ← File.replace (merge f.entity.fields stored r)
    return f.entity.findingsOf found

/-- Deletes the record with the key of another. -/
def deleteKeyed (r : Record) : Work File (List Finding) := do
  let f ← Work.state
  let found ← File.delete (f.keyOf r)
  return f.entity.findingsOf found

def insert (s : FileService) (r : Record) : Work File Record :=
  s.keyedWrite "insert" (fun missing => .error (lacksKey missing)) insertKeyed r

def update (s : FileService) (r : Record) : Work File (List Finding) :=
  s.keyedWrite "update" .ok updateKeyed r

def delete (s : FileService) (r : Record) : Work File (List Finding) :=
  s.keyedWrite "delete" .ok deleteKeyed r

/-! ## What a write comes to -/

/-- What comes before a write: it is refused, or it is told what is wrong with the request, or it goes
on. -/
theorem outcome_keyedWrite {α : Type} (s : FileService) (operation : String)
    (lacking : List Finding → Except Fault α) (go : Record → Work File α) (sent : Record) (f : File) :
    (s.keyedWrite operation lacking go sent).outcome f =
      if s.readOnly then (.error (.readOnly f.entity.name operation), f)
      else
        match f.entity.requested sent with
        | .error fault => (.error fault, f)
        | .ok r =>
          if (f.entity.missingFindings r).isEmpty then (go r).outcome f
          else (lacking (f.entity.missingFindings r), f) := by
  rw [keyedWrite, Work.outcome_state_bind, Work.outcome_bind, Work.outcome_ofTraced,
    result_ensureWritable]
  cases s.readOnly with
  | true => rfl
  | false =>
      rw [if_neg Bool.false_ne_true, if_neg Bool.false_ne_true]
      dsimp only
      rw [Work.outcome_bind, Work.outcome_ofResult]
      cases f.entity.requested sent with
      | error fault => rfl
      | ok r =>
          dsimp only
          split <;> rfl

theorem outcome_insertKeyed (f : File) (r : Record) :
    (insertKeyed r).outcome f =
      match f.read (f.keyOf r) with
      | .error fault => (.error fault, f)
      | .ok (some _) => (.error (.ofDuplicateKey f.entity.name (f.entity.keyRecord r)), f)
      | .ok none =>
        let (written, g) := (File.write (f.entity.project r)).outcome f
        (written.map fun _ => f.entity.keyRecord r, g) := by
  rw [insertKeyed, Work.outcome_state_bind, Work.outcome_bind, Work.outcome_ofResult]
  cases f.read (f.keyOf r) with
  | error fault => rfl
  | ok found =>
      cases found with
      | some stored => rfl
      | none => exact Work.outcome_bind_pure _ _ _

theorem outcome_updateKeyed (f : File) (r : Record) :
    (updateKeyed r).outcome f =
      match f.read (f.keyOf r) with
      | .error fault => (.error fault, f)
      | .ok none => (.ok (f.entity.findingsOf false), f)
      | .ok (some stored) =>
        let (found, g) := (File.replace (merge f.entity.fields stored r)).outcome f
        (found.map f.entity.findingsOf, g) := by
  rw [updateKeyed, Work.outcome_state_bind, Work.outcome_bind, Work.outcome_ofResult]
  cases f.read (f.keyOf r) with
  | error fault => rfl
  | ok found =>
      cases found with
      | none => rfl
      | some stored => exact Work.outcome_bind_pure _ _ _

theorem outcome_deleteKeyed (f : File) (r : Record) :
    (deleteKeyed r).outcome f =
      let (found, g) := (File.delete (f.keyOf r)).outcome f
      (found.map f.entity.findingsOf, g) :=
  Work.outcome_bind_pure _ _ _

end FileService

end Rowgate
