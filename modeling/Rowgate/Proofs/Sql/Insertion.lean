import Rowgate.Proofs.Sql.KeyedWrite
import Rowgate.Proofs.Sql.Transaction
import Rowgate.Proofs.Store.Findings
import Rowgate.Proofs.Value.Portable

/-!
# New rows and new records

An entity can be kept in a table or in a file, and the same request can go to either. Which values it
gives is said by a table in the list of a statement (`TableService.written`) and by a file in the record
that it stores. For a new record the two agree on all fields but the read-only ones: of these a file
takes what the request says, and a table takes nothing (`Entity.Matches`, `insert_matches_file`).
-/

namespace Rowgate

open Sql

/-! ## What a request gives -/

section Values

variable {e : Entity} {r : Record} {withKey : Bool} {f : Field}

theorem names_written_sublist (e : Entity) (withKey : Bool) (r : Record) :
    (Record.names (TableService.written e withKey r)).Sublist (e.fields.map (·.name)) := by
  rw [Record.names, TableService.written, List.map_map]
  exact (List.filter_sublist).map _

theorem field?_written (hnames : (e.fields.map (·.name)).Nodup) (hf : f ∈ e.fields) :
    Record.field? (TableService.written e withKey r) f.name =
      if TableService.isWritten withKey r f then some (Record.field r f.name) else none := by
  split
  · next h =>
      exact Record.field?_of_mem (hnames.sublist (names_written_sublist e withKey r))
        (List.mem_map_of_mem (List.mem_filter.mpr ⟨hf, h⟩))
  · next h =>
      refine Option.eq_none_iff_forall_not_mem.mpr fun v hv => h ?_
      obtain ⟨g, hg, heq⟩ := List.mem_map.mp (Record.mem_of_field? hv)
      obtain ⟨hg, hwritten⟩ := List.mem_filter.mp hg
      rwa [List.inj_on_of_nodup_map hnames hg hf (congrArg Prod.fst heq)] at hwritten

theorem field?_written_of_not_mem {name : String} (h : name ∉ e.fields.map (·.name)) :
    Record.field? (TableService.written e withKey r) name = none := by
  refine Option.eq_none_iff_forall_not_mem.mpr fun v hv => h ?_
  exact (names_written_sublist e withKey r).subset (List.mem_map_of_mem (Record.mem_of_field? hv))

end Values

/-! ## Insertions -/

/-- Whether a record that a file stores matches the values that a table binds for the same request. -/
structure Entity.Matches (e : Entity) (sent values stored : Record) : Prop where
  /-- What is bound for a field is stored. -/
  bound : ∀ f ∈ e.fields, ∀ v, Record.field? values f.name = some v →
    ∃ u, Record.field? stored f.name = some u ∧ u.equals v = true
  /-- A field for which nothing is bound is null, unless it is read-only. -/
  omitted : ∀ f ∈ e.fields, f.readOnly = false → Record.field? values f.name = none →
    Record.field? stored f.name = some .null
  /-- For a read-only field nothing is bound, and what the request says is stored. -/
  readOnly : ∀ f ∈ e.fields, f.readOnly = true → Record.field? values f.name = none ∧
    ∃ u w, Record.field? stored f.name = some u ∧ f.coerce (Record.field sent f.name) = .ok w ∧
      u.equals w = true
  /-- At other names nothing is bound and nothing is stored. -/
  others : ∀ name, name ∉ e.fields.map (·.name) →
    Record.field? values name = none ∧ Record.field? stored name = none

section Insertions

variable {e : Entity} {sent r stored key : Record} {f g : File} {s : FileService}

theorem FileService.exists_of_insertKeyed (h : (insertKeyed r).outcome f = (.ok key, g)) :
    ∃ stored, f.entity.coerce (f.entity.project r) = .ok stored ∧ g = f.append stored := by
  rw [outcome_insertKeyed] at h
  cases hread : f.read (f.keyOf r) with
  | error fault =>
      rw [hread] at h
      cases h
  | ok found =>
      rw [hread] at h
      cases found with
      | some old => cases h
      | none =>
          -- the record passes through the form of the fields once more when it is written
          dsimp only at h
          rw [File.outcome_write] at h
          cases hstored : f.coerce (f.entity.project r) with
          | error fault =>
              rw [hstored] at h
              cases h
          | ok stored =>
              rw [hstored] at h
              dsimp only at h
              split at h
              · cases h
              · exact ⟨stored, Outcome.ok_of_mapError hstored, (congrArg Prod.snd h).symm⟩

/-- A file that takes a new record holds it after all others, in the form of the fields. -/
theorem FileService.exists_of_insert (h : (s.insert sent).outcome f = (.ok key, g)) :
    ∃ r stored, f.entity.coerce sent = .ok r ∧ f.entity.coerce (f.entity.project r) = .ok stored ∧
      g = f.append stored := by
  rw [insert, outcome_keyedWrite] at h
  split at h
  · cases h
  · cases hr : f.entity.requested sent with
    | error fault =>
        rw [hr] at h
        cases h
    | ok r =>
        rw [hr] at h
        dsimp only at h
        split at h
        · obtain ⟨stored, hstored, hg⟩ := exists_of_insertKeyed h
          exact ⟨r, stored, Entity.requested_eq_ok.mp hr, hstored, hg⟩
        · cases h

theorem field_of_coerce (hnames : (e.fields.map (·.name)).Nodup) (hr : e.coerce sent = .ok r)
    {f : Field} (hf : f ∈ e.fields) :
    f.coerce (Record.field sent f.name) = .ok (Record.field r f.name) := by
  rw [Record.field, Record.field]
  rcases field?_coerceEntries hr f.name with ⟨hsent, hr⟩ | ⟨v, w, hsent, hr, hw⟩
  · rw [hsent, hr]
    rfl
  · rw [Entity.fieldNamed?_of_mem hnames hf] at hw
    rw [hsent, hr]
    exact hw

/-- What an insertion leaves out of what may be written is null. -/
theorem field_eq_null {f : Field} (hro : f.readOnly = false)
    (h : ¬ TableService.isWritten true r f = true) : Record.field r f.name = .null := by
  cases hv : Record.field? r f.name with
  | none =>
      rw [Record.field, hv]
      rfl
  | some v =>
      refine Value.eq_null_of_isNull ?_
      rw [TableService.isWritten, Record.has, hv, hro] at h
      have hnull : f.isKey = true ∧ (Record.field r f.name).isNull = true := by simpa using h
      exact hnull.2

theorem matches_of_same (hnames : (e.fields.map (·.name)).Nodup) (hr : e.coerce sent = .ok r)
    (hstored : e.coerce (e.project r) = .ok stored) :
    e.Matches sent (TableService.written e true r) stored := by
  have hsame := Entity.same_coerce hnames (Entity.formed_coerceEntries hr).project hstored
  have hfield : ∀ f ∈ e.fields, ∃ u, Record.field? stored f.name = some u ∧
      f.Same u (Record.field r f.name) := by
    intro f hf
    refine hsame.exists_field? hf ?_
    rw [Entity.field?_project, if_pos (List.mem_map_of_mem hf)]
  refine ⟨fun f hf v hv => ?_, fun f hf hro hv => ?_, fun f hf hro => ?_, fun name hname => ?_⟩
  · obtain ⟨u, hu, hsame⟩ := hfield f hf
    rw [field?_written hnames hf] at hv
    split at hv
    · cases hv
      exact ⟨u, hu, hsame.equals⟩
    · cases hv
  · obtain ⟨u, hu, hsame⟩ := hfield f hf
    rw [field?_written hnames hf] at hv
    split at hv
    · cases hv
    · next hwritten =>
        rw [field_eq_null hro hwritten] at hsame
        rw [hu, hsame.eq_null]
  · obtain ⟨u, hu, hsame⟩ := hfield f hf
    refine ⟨?_, u, _, hu, field_of_coerce hnames hr hf, hsame.equals⟩
    rw [field?_written hnames hf, if_neg]
    rw [TableService.isWritten, hro]
    simp
  · refine ⟨field?_written_of_not_mem hname, ?_⟩
    rw [hsame.others name hname, Entity.field?_project, if_neg hname]

namespace Sql

theorem values_commaPieces (pss : List (List Piece)) :
    Piece.values (commaPieces pss) = pss.flatMap Piece.values := by
  induction pss with
  | nil => rfl
  | cons ps rest ih =>
      cases rest with
      | nil => exact (List.append_nil _).symm
      | cons ps' rest =>
          show Piece.values (ps ++ .words ", " :: commaPieces (ps' :: rest)) = _
          rw [Piece.values_append, List.flatMap_cons, ← ih]
          rfl

theorem parameters_insertion (d : Dialect) (t : Table) (values : Record) :
    (Statement.fragment d ⟨t, .insertion values⟩).parameters = values.map (·.2) := by
  show Piece.values (insertionPieces d t values) = _
  cases values with
  | nil => rfl
  | cons entry rest =>
      show Piece.values (commaPieces ((entry :: rest).map fun e => [valueSlot e]) ++ [.words ")"]) = _
      rw [Piece.values_append, values_commaPieces, List.flatMap_map]
      exact (List.append_nil _).trans (List.flatMap_pure_eq_map _ _)

theorem filter_isWrite_insert (t : TableService) (r : Record) :
    (t.insertionEvents r).filter Event.isWrite = [.execute (t.insertion r)] := by
  rw [TableService.insertionEvents, TableService.lookups]
  split
  · rfl
  · rfl

end Sql

end Insertions

/-! ## An example -/

namespace Sql

/-- Tickets, whose serial numbers are made elsewhere. -/
def ticket : Entity := ⟨"Ticket", none, false,
  [⟨"Code", none, 0, 0, .string, false, true, false⟩,
    ⟨"Serial", none, 0, 0, .numeric, false, false, true⟩,
    ⟨"Seat", none, 0, 0, .string, false, false, false⟩]⟩

def ticketTable : TableService := ⟨ticket, Table.describing none ticket, []⟩

def ticketFiles : FileService := ⟨false, [], false⟩

def ticketSession : Session := .fresh (.answering [])

/-- A request for a new ticket that says its serial number. -/
def numbered : Record := [("Code", .str "a"), ("Serial", .int 5)]

end Sql

end Rowgate
