import Rowgate.Proofs.Sql.Insertion
import Rowgate.Proofs.Store.Revision

/-!
# Changes in tables and in files

An update and a deletion are answered alike by a table and by a file whose keys the database knows
(`Session.Mirrors`). Both sides meet `Entity.findings`: a file by reading, changing and storing a record,
a table by one statement and the number of rows that it changed. The one way for them to differ is that
the statement of an update cannot be put to the database, since the slots of the columns that it lists
cannot be told from each other or from one for the key (`TableService.updateFault?`). Where both find
nothing wrong, the list of the statement says just what was set in the record (`Entity.Assigned`).
-/

namespace Rowgate

open Sql

/-! ## What is set -/

/-- A record in which some values have been set, one after the other. -/
def Record.assign (r : Record) (entries : List (String × Value)) : Record :=
  entries.foldl (fun r (k, v) => Record.set r k v) r

/-- Whether some values were set in a record, and nothing else was. -/
structure Entity.Assigned (e : Entity) (values old new : Record) : Prop where
  /-- A field has the value that was set. -/
  set : ∀ f ∈ e.fields, ∀ v, Record.field? values f.name = some v →
    ∃ u, Record.field? new f.name = some u ∧ u.equals v = true
  /-- A field for which no value was set has an equal one to what it had. -/
  kept : ∀ f ∈ e.fields, Record.field? values f.name = none →
    Option.Rel (fun v w => v.equals w = true) (Record.field? old f.name) (Record.field? new f.name)
  /-- No value was set at another name, and it has what it had. -/
  others : ∀ name, name ∉ e.fields.map (·.name) →
    Record.field? values name = none ∧ Record.field? new name = Record.field? old name

section Assignments

variable {e : Entity} {f : Field} {r old new : Record}

theorem isWritten_eq (r : Record) (f : Field) :
    TableService.isWritten false r f = (Record.has r f.name && f.isSettable) := by
  rw [TableService.isWritten, Field.isSettable, Bool.false_and, Bool.or_false, Bool.and_assoc,
    Bool.and_comm (!f.readOnly)]

/-- The values that a table sets in a row are those that a file sets in a record. -/
theorem merge_eq_assign (fields : List Field) (stored r : Record) :
    FileService.merge fields stored r = Record.assign stored
      ((fields.filter (TableService.isWritten false r)).map fun f =>
        (f.name, Record.field r f.name)) := by
  -- both sides go through the fields in their order, and what was set so far is `stored`
  induction fields generalizing stored with
  | nil => rfl
  | cons f fields ih =>
      rw [FileService.merge, List.filter_cons, isWritten_eq, Record.has, Field.isSettable,
        ← Bool.not_or]
      cases hv : Record.field? r f.name with
      | none => exact ih stored
      | some v =>
          cases f.isKey || f.readOnly with
          | true => exact ih stored
          | false =>
              have hfield : Record.field r f.name = v := by
                rw [Record.field, hv]
                rfl
              rw [← hfield]
              exact ih (Record.set stored f.name (Record.field r f.name))

theorem field?_merge_of_written (hnames : (e.fields.map (·.name)).Nodup) (hf : f ∈ e.fields) :
    Record.field? (FileService.merge e.fields old r) f.name =
      (Record.field? (TableService.written e false r) f.name).or (Record.field? old f.name) := by
  rw [field?_merge_of_mem hnames hf, field?_written hnames hf, isWritten_eq, Record.has, Record.field]
  cases f.isSettable with
  | false =>
      rw [Bool.and_false]
      rfl
  | true => cases Record.field? r f.name <;> rfl

/-- A record that was updated has the values that a table sets. -/
theorem assigned_of_same (hnames : (e.fields.map (·.name)).Nodup)
    (hnew : e.Same new (FileService.merge e.fields old r)) :
    e.Assigned (TableService.written e false r) old new := by
  refine ⟨fun f hf v hv => ?_, fun f hf hv => ?_, fun name hname => ?_⟩
  · have hrel := hnew.fields f hf
    rw [field?_merge_of_written hnames hf, hv, Option.some_or] at hrel
    obtain ⟨u, hu, hsame⟩ := exists_of_rel hrel
    exact ⟨u, hu, hsame.equals⟩
  · have hrel := hnew.fields f hf
    rw [field?_merge_of_written hnames hf, hv, Option.none_or] at hrel
    exact rel_equals hrel
  · refine ⟨field?_written_of_not_mem hname, ?_⟩
    rw [hnew.others name hname, field?_merge_of_not_mem hname]

end Assignments

namespace Sql

/-! ## Statements that can be put to a database -/

namespace Piece

theorem columns_append (ps qs : List Piece) : columns (ps ++ qs) = columns ps ++ columns qs := by
  induction ps with
  | nil => rfl
  | cons p ps ih => cases p <;> simp only [List.cons_append, columns, ih]

theorem disguised_of_columns {ps : List Piece} (h : columns ps = []) : disguised ps = [] := by
  rw [disguised, h]
  rfl

theorem fault?_of_columns {ps : List Piece} (h : columns ps = []) : fault? ps = none := by
  have hambiguous : areAmbiguous ps = false := by
    rw [areAmbiguous, h, List.any_eq_false]
    exact fun _ _ => Bool.false_ne_true
  rw [fault?, hambiguous, disguised_of_columns h]
  rfl

end Piece

namespace Clause

variable {d : Dialect} {t : Table}

theorem columns_enclose (b : Bool) (ps : List Piece) :
    Piece.columns (enclose b ps) = Piece.columns ps := by
  cases b with
  | false => rfl
  | true => exact (Piece.columns_append ps _).trans (List.append_nil _)

theorem columns_comparePieces (c : Column) (r : Relation) (fold : Bool) (v : Value) :
    Piece.columns (comparePieces d t c r fold v) = [] := by
  cases fold <;> cases v <;> rfl

mutual

/-- No clause sets a column. -/
theorem columns_pieces (c : Clause) : Piece.columns (c.pieces d t) = [] := by
  match c with
  | .truth _ | .settled _ | .missing .. | .empty .. => rfl
  | .compare c r fold v =>
      rw [pieces]
      exact columns_comparePieces c r fold v
  | .like c negated fold pattern =>
      rw [pieces]
      cases fold <;> rfl
  | .group logic cs =>
      rw [pieces]
      exact columns_memberPieces logic true cs

theorem columns_memberPieces (logic : Logic) (first : Bool) (cs : List Clause) :
    Piece.columns (memberPieces d t logic first cs) = [] := by
  match cs with
  | [] => rfl
  | c :: cs =>
      rw [memberPieces, Piece.columns_append, Piece.columns_append, columns_enclose,
        columns_pieces c, columns_memberPieces logic false cs]
      cases first <;> rfl

end

end Clause

variable {d : Dialect} {t : Table} {key : Record}

theorem columns_wherePieces (lead : String) (c : Option Clause) :
    Piece.columns (wherePieces d t lead c) = [] := by
  cases c with
  | none => rfl
  | some c => exact Clause.columns_pieces _

theorem fault?_removal : Piece.fault? (Statement.pieces d ⟨t, .removal key⟩) = none :=
  Piece.fault?_of_columns (columns_wherePieces _ _)

/-- A statement about a table with a name is put to a database unless its slots are confused. -/
theorem compile_of_named (ht : t.name ≠ "") (c : Command) :
    Statement.compile d ⟨t, c⟩ =
      match Piece.fault? (Statement.pieces d ⟨t, c⟩) with
      | some f => .error f
      | none => .ok (Statement.fragment d ⟨t, c⟩) := by
  rw [Statement.compile, Table.compile, String.isEmpty_eq_false_iff.mpr ht, Bool.and_false]
  rfl

/-! ## Answers -/

/-- Whether a database, asked for a row of a table first thing in a transaction, answers as a file that
holds the keys of the rows would. -/
structure Session.Mirrors (s : Session) (t : Table) (f : File) : Prop where
  permits : s.database.Permits
  lookup : ∀ key, ∃ a, s.database.answer (s.events ++ [.start]) ⟨t, .keyCheck key⟩ = .ok a ∧
    a.rows.isEmpty = !f.contains (f.keyOf key)
  change : ∀ values key, ∃ a,
    s.database.answer (s.events ++ [.start]) ⟨t, .change values key⟩ = .ok a ∧
      a.changed = if f.contains (f.keyOf key) then 1 else 0
  removal : ∀ key, ∃ a, s.database.answer (s.events ++ [.start]) ⟨t, .removal key⟩ = .ok a ∧
    a.changed = if f.contains (f.keyOf key) then 1 else 0

/-- The key of the row that a command is about. -/
def Command.key? : Command → Option Record
  | .keyCheck key | .change _ key | .removal key => some key
  | _ => none

/-- The values that a command sets in the row of a key. -/
def Command.setList : Command → Record
  | .change values _ => values
  | _ => []

/-- What a database that knows the keys of a file says of a key. -/
theorem Session.Mirrors.found {s : Session} {f : File} (h : s.Mirrors t f) {c : Command}
    (hc : c.key? = some key) :
    ∃ a, s.database.answer (s.events ++ [.start]) ⟨t, c⟩ = .ok a ∧
      c.found a = f.contains (f.keyOf key) := by
  have hchanged : ∀ {a : Answer}, (a.changed = if f.contains (f.keyOf key) then 1 else 0) →
      (a.changed != 0) = f.contains (f.keyOf key) := by
    intro a ha
    rw [ha]
    cases f.contains (f.keyOf key) <;> rfl
  cases c with
  | keyCheck key' =>
      cases hc
      obtain ⟨a, ha, hrows⟩ := h.lookup key
      exact ⟨a, ha, by rw [Command.found, hrows, Bool.not_not]⟩
  | change values key' =>
      cases hc
      obtain ⟨a, ha, hrows⟩ := h.change values key
      exact ⟨a, ha, hchanged hrows⟩
  | removal key' =>
      cases hc
      obtain ⟨a, ha, hrows⟩ := h.removal key
      exact ⟨a, ha, hchanged hrows⟩
  | page p => cases hc
  | count c => cases hc
  | insertion values => cases hc

namespace TableService

variable {t : TableService} {session : Session} {f : File} {sent r : Record} {c : Command}
  {command : Record → Command} {operation : String}

/-- Why the update of a row cannot be put to a database, if it cannot. -/
def updateFault? (t : TableService) (r : Record) : Option Fault :=
  Piece.fault? (Statement.pieces .sqlite ⟨t.table, updating t.entity r⟩)

theorem key?_updating (e : Entity) (r : Record) : (updating e r).key? = some r := by
  rw [updating]
  split <;> rfl

theorem setList_updating (e : Entity) (r : Record) : (updating e r).setList = written e false r := by
  rw [updating]
  split
  · next h => exact (List.isEmpty_iff.mp h).symm
  · rfl

/-- What a command finds, where the database knows the keys of a file. -/
theorem verdict_of_mirrors (hmirrors : session.Mirrors t.table f) (hname : t.table.name ≠ "")
    (hc : c.key? = some r) :
    t.verdict (session.after [.start]) c =
      match Piece.fault? (Statement.pieces .sqlite ⟨t.table, c⟩) with
      | some fault => .error fault
      | none => .ok (if f.contains (f.keyOf r) then [] else [.notFound t.entity]) := by
  obtain ⟨a, ha, hfound⟩ := hmirrors.found hc
  rw [verdict, compile_of_named hname]
  cases Piece.fault? (Statement.pieces .sqlite ⟨t.table, c⟩) with
  | some fault => rfl
  | none =>
      show (do
        let answer ← session.database.answer (session.events ++ [Event.start]) ⟨t.table, c⟩
        .ok (t.entity.findingsOf (c.found answer))) = _
      rw [ha, ← hfound]
      rfl

/-- A write by a command about the row of a key finds what any store with the same keys finds. -/
theorem findings_writesBy (hmirrors : session.Mirrors t.table f) (hname : t.table.name ≠ "")
    (hwritable : t.entity.readOnly = false) (hkey : ∀ r, (command r).key? = some r)
    (hput : ∀ r, t.entity.Keyed sent r →
      Piece.fault? (Statement.pieces .sqlite ⟨t.table, command r⟩) = none) :
    ((t.writesBy operation command sent).run session).2.result =
      t.entity.findings (fun r => f.contains (f.keyOf r)) sent := by
  rw [result_writesBy hwritable hmirrors.permits, Entity.findings]
  cases hreq : t.entity.requested sent with
  | error fault => rfl
  | ok r =>
      show (if (t.entity.missingFindings r).isEmpty then _ else _) =
        Except.ok (if (t.entity.missingFindings r).isEmpty then _ else _)
      split
      · next hmissing =>
          rw [verdict_of_mirrors hmirrors hname (hkey r),
            hput r ⟨Entity.requested_eq_ok.mp hreq, missingKeys_of_missingFindings hmissing⟩]
      · rfl

/-- An update that cannot be put to the database comes out with the reason. -/
theorem result_update_of_fault {fault : Fault} (hmirrors : session.Mirrors t.table f)
    (hname : t.table.name ≠ "") (hwritable : t.entity.readOnly = false) (hr : t.entity.Keyed sent r)
    (hfault : t.updateFault? r = some fault) :
    ((t.update sent).run session).2.result = .error fault := by
  rw [updateFault?] at hfault
  rw [update_eq_writesBy, result_writesBy hwritable hmirrors.permits,
    Entity.requested_eq_ok.mpr hr.1]
  show (if (t.entity.missingFindings r).isEmpty then _ else _) = _
  rw [if_pos ((t.entity.isEmpty_missingFindings r).mpr hr.2),
    verdict_of_mirrors hmirrors hname (key?_updating t.entity r), hfault]

/-- What a table and a file that holds the same keys do with an update and a deletion of what was
sent. -/
structure Agrees (t : TableService) (session : Session) (s : FileService) (f : File)
    (sent : Record) : Prop where
  /-- A deletion is answered alike. -/
  delete : ((t.delete sent).run session).2.result = ((s.delete sent).outcome f).1
  /-- So is an update that can be put to the database. -/
  update : (∀ r, t.entity.Keyed sent r → t.updateFault? r = none) →
    ((t.update sent).run session).2.result = ((s.update sent).outcome f).1
  /-- One that cannot be is answered by a table with the reason. -/
  stopped : ∀ r fault, t.entity.Keyed sent r → t.updateFault? r = some fault →
    ((t.update sent).run session).2.result = .error fault
  /-- The only fault of a file is a value that has no form of its field. -/
  invalid : ∀ fault, ((s.delete sent).outcome f).1 = .error fault ∨
      ((s.update sent).outcome f).1 = .error fault →
    ∃ v : ValueFault, fault = .ofMessages .request wholeRequest [v.message]
  /-- Where nothing is found wrong, what the one statement of the table sets in a row is what the file
  has set in the record. -/
  assigned : ∀ g, (s.update sent).outcome f = (.ok [], g) →
    ((t.update sent).run session).2.result = .ok [] →
    ∃ r before old new after, t.entity.Keyed sent r ∧ f.records = before ++ old :: after ∧
      g = { f with records := before ++ new :: after } ∧
      ((t.update sent).run session).1.events =
        session.events ++ [.start, .execute ⟨t.table, updating t.entity r⟩, .commit] ∧
      (∀ stored, FileService.merge t.entity.fields stored r =
        Record.assign stored (updating t.entity r).setList) ∧
      t.entity.Assigned (updating t.entity r).setList old new

/-- An update that finds nothing wrong sets the same in a row and in a record. -/
theorem exists_assigned {s : FileService} {g : File} (hf : f.Sound)
    (hentity : f.entity = t.entity) (hfile : (s.update sent).outcome f = (.ok [], g))
    (hrow : ((t.update sent).run session).2.result = .ok []) :
    ∃ r before old new after, t.entity.Keyed sent r ∧ f.records = before ++ old :: after ∧
      g = { f with records := before ++ new :: after } ∧
      ((t.update sent).run session).1.events =
        session.events ++ [.start, .execute ⟨t.table, updating t.entity r⟩, .commit] ∧
      (∀ stored, FileService.merge t.entity.fields stored r =
        Record.assign stored (updating t.entity r).setList) ∧
      t.entity.Assigned (updating t.entity r).setList old new := by
  rw [update_eq_writesBy] at hrow ⊢
  obtain ⟨r', hr', hstate⟩ := exists_of_writesBy hrow
  obtain ⟨r, old, new, before, after, hr, -, hrecords, hg, hsame, -⟩ :=
    FileService.exists_of_update hf hfile
  have hnames := hf.names
  rw [hentity] at hr hsame hnames
  -- both sides have brought the request to one form
  rw [hr'.unique hr] at hstate
  refine ⟨r, before, old, new, after, hr, hrecords, hg, congrArg Session.events hstate, ?_, ?_⟩
  · intro stored
    rw [setList_updating]
    exact merge_eq_assign t.entity.fields stored r
  · rw [setList_updating]
    exact assigned_of_same hnames hsame

end TableService

/-- What a database that knows the keys of a file answers. -/
def answerAs (f : File) : Command → Answer
  | .keyCheck key => { Answer.nothing with rows := if f.contains (f.keyOf key) then [key] else [] }
  | .change _ key | .removal key =>
    { Answer.nothing with changed := if f.contains (f.keyOf key) then 1 else 0 }
  | _ => .nothing

def Database.knowing (f : File) : Database where
  answer _ statement := .ok (answerAs f statement.command)
  permit _ _ := .ok ()

theorem mirrors_knowing (f : File) (t : Table) : (Session.fresh (.knowing f)).Mirrors t f where
  permits _ _ := rfl
  lookup key := by
    refine ⟨_, rfl, ?_⟩
    show (if f.contains (f.keyOf key) then [key] else []).isEmpty = _
    cases f.contains (f.keyOf key) <;> rfl
  change _ _ := ⟨_, rfl, rfl⟩
  removal _ := ⟨_, rfl, rfl⟩

/-- Drawers by their row, with a label and a second row that some of them reach into. -/
def drawer : Entity := ⟨"Drawer", none, false,
  [⟨"Row", none, 0, 0, .string, false, true, false⟩,
    ⟨"Row_1", none, 0, 0, .string, false, false, false⟩,
    ⟨"Label", none, 0, 0, .string, false, false, false⟩]⟩

def drawerTable : TableService := ⟨drawer, Table.describing none drawer, []⟩

def drawerFile : File := ⟨drawer, [[("Row", .str "k"), ("Row_1", .null), ("Label", .str "old")]]⟩

def drawerFiles : FileService := ⟨false, [], false⟩

/-- A request to set the label of a drawer. -/
def labelled : Record := [("Row", .str "k"), ("Label", .str "new")]

/-- A request to set the second row of a drawer. -/
def reaching : Record := [("Row", .str "k"), ("Row_1", .str "v")]

theorem name_row : Naming.fresh.name (stemOf "Row") = "Row_1" := by
  have hstem : stemOf "Row" = "Row" := by simp [stemOf, closeGaps, stripLowLines, isStemGap]
  rw [hstem]
  decide

theorem updateFault?_labelled : drawerTable.updateFault? labelled = none := by
  have hslots : Piece.slotNames .fresh
      (Statement.pieces .sqlite ⟨drawerTable.table, TableService.updating drawer labelled⟩) =
        [Naming.fresh.name (stemOf "Row")] := rfl
  have hambiguous : Piece.areAmbiguous
      (Statement.pieces .sqlite ⟨drawerTable.table, TableService.updating drawer labelled⟩) =
        false := by
    rw [Piece.areAmbiguous, hslots, name_row]
    rfl
  rw [TableService.updateFault?, Piece.fault?]
  exact (if_neg (ne_true_of_eq_false hambiguous)).trans rfl

theorem updateFault?_reaching : drawerTable.updateFault? reaching = some .ambiguous := by
  have hslots : Piece.slotNames .fresh
      (Statement.pieces .sqlite ⟨drawerTable.table, TableService.updating drawer reaching⟩) =
        [Naming.fresh.name (stemOf "Row")] := rfl
  have hambiguous : Piece.areAmbiguous
      (Statement.pieces .sqlite ⟨drawerTable.table, TableService.updating drawer reaching⟩) = true := by
    rw [Piece.areAmbiguous, hslots, name_row]
    rfl
  rw [TableService.updateFault?, Piece.fault?]
  exact if_pos hambiguous

end Sql

end Rowgate
