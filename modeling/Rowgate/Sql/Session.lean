import Rowgate.Sql.Statement
import Rowgate.Work

/-!
# Sessions with a database

A database is known by its answers. `Session` keeps what has been asked of it, in order, and
`Dialogue` is work that asks. Every dialogue runs in blocks: a connection is closed at the end of
its block however the block ends, and a transaction is committed if its block ends well and rolled
back otherwise.
-/

namespace Rowgate.Sql

/-- What is asked of a database. -/
inductive Event
  | connect
  | close
  | start
  | commit
  | rollback
  | execute (statement : Statement)
  /-- The tables of a schema are looked up. -/
  | inspect (schema : Option String)

/-- What a database answers to a statement. -/
structure Answer where
  rows : List Record
  /-- How many rows the statement changed. -/
  changed : Int
  /-- The number that a count comes to. -/
  scalar : Int
  /-- The key of an inserted row, if the database tells it. -/
  insertedKey : Option (List Value)

def Answer.nothing : Answer := ⟨[], 0, 0, none⟩

/-- A database: how it answers a statement, and whether it does what else it is asked, both after
the events before. -/
structure Database where
  answer : List Event → Statement → Except Fault Answer
  permit : List Event → Event → Except Fault Unit

def Event.isStatement : Event → Bool
  | .execute _ => true
  | _ => false

/-- The database that gives some answers one after the other, and then answers nothing. It does
whatever else it is asked. -/
def Database.answering (answers : List (Except Fault Answer)) : Database where
  answer events _ := (answers[(events.filter Event.isStatement).length]?).getD (.ok .nothing)
  permit _ _ := .ok ()

/-- A database and what has been asked of it. -/
structure Session where
  database : Database
  events : List Event

/-- A session in which nothing has been asked. -/
def Session.fresh (database : Database) : Session := ⟨database, []⟩

abbrev Dialogue := Work Session

namespace Dialogue

variable {α : Type}

def record (e : Event) : Dialogue Unit := Work.change fun s => { s with events := s.events ++ [e] }

/-- Asks for something that the database may refuse; it is kept only if it is done. -/
def ask (e : Event) : Dialogue Unit := do
  let s ← Work.state
  Work.ofResult (s.database.permit s.events e)
  record e

/-- The answer to a statement. A statement is kept whatever the answer is, unless it cannot be put
to the database at all. -/
def execute (statement : Statement) : Dialogue Answer := do
  let _ ← Work.ofResult (statement.compile .sqlite)
  let s ← Work.state
  record (.execute statement)
  Work.ofResult (s.database.answer s.events statement)

/-- Work on a connection of its own. -/
def inConnection (work : Dialogue α) : Dialogue α := do
  ask .connect
  let outcome ← work.attempt
  record .close
  Work.ofResult outcome

/-- Takes back a transaction and fails. -/
def undo (f : Fault) : Dialogue α := do
  record .rollback
  Work.fail f

/-- Work in a transaction of its own. -/
def inTransaction (work : Dialogue α) : Dialogue α := do
  ask .start
  match ← work.attempt with
  | .error f => undo f
  | .ok a =>
    match ← (ask .commit).attempt with
    | .ok _ => return a
    | .error f => undo f

end Dialogue

end Rowgate.Sql
