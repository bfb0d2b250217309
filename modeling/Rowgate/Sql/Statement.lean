import Rowgate.Query.Basic
import Rowgate.Sql.Spelling

/-!
# Statements

The statements that are run on a table: the page of a query, the count of what it passes, the
question whether a row has a key, and the writes. Every write that changes or removes rows names one
row by its key.
-/

namespace Rowgate.Sql

/-- The columns of an order, with their directions. -/
abbrev Order := List (Column × Direction)

/-- A page of the rows of a table that satisfy a condition. The rows are ordered by the first column
unless an order is given. A limit of zero is none. -/
structure PageSelection where
  condition : Option Clause
  first : Column
  order : Order
  skip : Nat
  take : Nat

inductive Command
  | page (p : PageSelection)
  | count (condition : Option Clause)
  /-- The question whether a row has the key of a record. -/
  | keyCheck (key : Record)
  | insertion (values : Record)
  /-- Changes some values of the row that has the key of a record. -/
  | change (values key : Record)
  /-- Removes the row that has the key of a record. -/
  | removal (key : Record)

/-- A command and the table that it is run on. -/
structure Statement where
  table : Table
  command : Command

/-- The clause that a row has the key of a record, if the table has a key. -/
def keyClause (t : Table) (r : Record) : Option Clause :=
  match t.keyColumns with
  | [] => none
  | cs =>
    some (Clause.combine .all (cs.map fun c => .compare c .eq false (Record.field r c.name)))

/-! ## Spelling -/

def wherePieces (d : Dialect) (t : Table) (lead : String) : Option Clause → List Piece
  | none => []
  | some c => .words (lead ++ "WHERE ") :: c.settle.pieces d t

def listed (texts : List String) : String := ", ".intercalate texts

/-- The choice of columns, which `spelled` writes. -/
def choiceWords (spelled : Column → String) (columns : List Column) : String :=
  if columns.isEmpty then "SELECT" else "SELECT " ++ listed (columns.map spelled)

/-- The choice of columns of the rows of a table that satisfy a condition. -/
def selectPieces (d : Dialect) (t : Table) (spelled : Column → String) (columns : List Column)
    (condition : Option Clause) : List Piece :=
  .words (choiceWords spelled columns ++ " \nFROM " ++ t.path d) :: wherePieces d t " \n" condition

/-- The choice of all columns of the rows that satisfy a condition. -/
def rowPieces (d : Dialect) (t : Table) (condition : Option Clause) : List Piece :=
  selectPieces d t (t.columnPath d) t.columns condition

def namedColumn (d : Dialect) (t : Table) (c : Column) : String :=
  t.columnPath d c ++ " AS " ++ d.spell c.name

def countPieces (d : Dialect) (t : Table) (condition : Option Clause) : List Piece :=
  [.words "SELECT count(*) AS ", .label "count", .words " \nFROM ("] ++
    selectPieces d t (namedColumn d t) t.columns condition ++ [.words ") AS sel"]

def directionWord : Direction → String
  | .ascending => " ASC"
  | .descending => " DESC"

/-- The order of the rows: by the first column unless columns are named. -/
def orderText (d : Dialect) (t : Table) (first : Column) (order : Order) : String :=
  if order.isEmpty then t.columnPath d first
  else listed (order.map fun (c, direction) => t.columnPath d c ++ directionWord direction)

def rowsSlot (n : Int) : Piece := .slot plainStem (.int n)

/-- The pieces of the limits of a page. SQLite writes both limits, the standard only those that are
set. -/
def limitPieces (d : Dialect) (skip take : Nat) : List Piece :=
  if skip = 0 ∧ take = 0 then []
  else
    match d with
    | .sqlite =>
      [.words "\n LIMIT ", rowsSlot (if take = 0 then -1 else take), .words " OFFSET ",
        rowsSlot skip]
    | .standard =>
      (if take = 0 then [.words "\n LIMIT -1"] else [.words "\n LIMIT ", rowsSlot take]) ++
        if skip = 0 then [] else [.words " OFFSET ", rowsSlot skip]

def pagePieces (d : Dialect) (t : Table) (p : PageSelection) : List Piece :=
  rowPieces d t p.condition ++ [.words (" ORDER BY " ++ orderText d t p.first p.order)] ++
    limitPieces d p.skip p.take

/-- The pieces of the question whether a row has a key. Without a key there is no table to ask. -/
def keyCheckPieces (d : Dialect) (t : Table) (r : Record) : List Piece :=
  match t.keyColumns with
  | [] => [.words (choiceWords (t.columnPath d) [])]
  | columns => selectPieces d t (t.columnPath d) columns (keyClause t r)

def commaPieces : List (List Piece) → List Piece
  | [] => []
  | [ps] => ps
  | ps :: rest => ps ++ .words ", " :: commaPieces rest

/-- The slot of a value for a column. -/
def valueSlot (entry : String × Value) : Piece := .assigned entry.1 entry.2

def insertionPieces (d : Dialect) (t : Table) (values : Record) : List Piece :=
  if values.isEmpty then [.words ("INSERT INTO " ++ t.path d ++ " DEFAULT VALUES")]
  else
    .words ("INSERT INTO " ++ t.path d ++ " (" ++ listed (values.names.map d.spell) ++
      ") VALUES (") :: (commaPieces (values.map fun e => [valueSlot e]) ++ [.words ")"])

def changePieces (d : Dialect) (t : Table) (values : Record) (key : Record) : List Piece :=
  .words ("UPDATE " ++ t.path d ++ " SET ") ::
    (commaPieces (values.map fun e => [.words (d.spell e.1 ++ "="), valueSlot e]) ++
      wherePieces d t " " (keyClause t key))

def removalPieces (d : Dialect) (t : Table) (key : Record) : List Piece :=
  .words ("DELETE FROM " ++ t.path d) :: wherePieces d t " " (keyClause t key)

def Statement.pieces (d : Dialect) (s : Statement) : List Piece :=
  match s.command with
  | .page p => pagePieces d s.table p
  | .count condition => countPieces d s.table condition
  | .keyCheck key => keyCheckPieces d s.table key
  | .insertion values => insertionPieces d s.table values
  | .change values key => changePieces d s.table values key
  | .removal key => removalPieces d s.table key

/-- The text and the parameters of a statement. -/
def Statement.fragment (d : Dialect) (s : Statement) : Fragment := d.render (s.pieces d)

/-! ## Statements that can be put to a database -/

/-- A fragment over a table, as a database is given it: a table without a name cannot be spelled. -/
def Table.compile (t : Table) (namesTable : Bool) (d : Dialect) (ps : List Piece) :
    Except Fault Fragment :=
  if namesTable && t.name.isEmpty then .error .unnamedTable
  else
    match Piece.fault? ps with
    | some f => .error f
    | none => .ok (d.render ps)

/-- A fragment over a table, as it is shown, where every value is looked up by its mark. -/
def Table.compose (t : Table) (namesTable : Bool) (d : Dialect) (ps : List Piece) :
    Except Fault Fragment := do
  let f ← t.compile namesTable d ps
  if (Piece.disguised ps).isEmpty then .ok f else .error .missedMark

/-- Whether a statement names its table. Only the question for the key of a table without a key does
not. -/
def Statement.namesTable (s : Statement) : Bool :=
  match s.command with
  | .keyCheck _ => !s.table.keyColumns.isEmpty
  | _ => true

/-- The fragment of a statement, if it can be put to a database. -/
def Statement.compile (d : Dialect) (s : Statement) : Except Fault Fragment :=
  s.table.compile s.namesTable d (s.pieces d)

/-- The fragment of a statement, if it can be shown. -/
def Statement.compose (d : Dialect) (s : Statement) : Except Fault Fragment :=
  s.table.compose s.namesTable d (s.pieces d)

/-- The fragment of a clause over a table. -/
def Clause.compose (d : Dialect) (t : Table) (c : Clause) : Except Fault Fragment :=
  t.compose c.namesColumn d (c.pieces d t)

/-- The fragment for all rows of a table. -/
def Table.allRows (d : Dialect) (t : Table) : Except Fault Fragment :=
  t.compose true d (rowPieces d t none)

end Rowgate.Sql
