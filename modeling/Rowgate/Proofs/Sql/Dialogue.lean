import Rowgate.Proofs.Outcome
import Rowgate.Proofs.Work
import Rowgate.Sql.Service

/-!
# What a service asks of its database

Whatever the database answers, and whether it goes on or refuses, the service of a table puts nothing
to it but statements that `TableService.Runs` lists, in blocks that are opened and closed
(`Event.isControl`). The writes in this list come with what was checked before them: the entity may be
written, the key of the row was read from a record that somebody offered, and none of it is missing.
-/

namespace Rowgate.Sql

/-- Whether an event opens or closes a block, a connection or a transaction. -/
def Event.isControl : Event → Bool
  | .execute _ | .inspect _ => false
  | _ => true

namespace Session

/-- Whether a session went on from another one, and only with some events. -/
def Extends (P : Event → Prop) (before now : Session) : Prop :=
  now.database = before.database ∧ ∃ later, now.events = before.events ++ later ∧ ∀ e ∈ later, P e

variable {P P' : Event → Prop} {before now later : Session}

theorem Extends.refl (P : Event → Prop) (s : Session) : s.Extends P s :=
  ⟨rfl, [], (List.append_nil _).symm, fun _ h => nomatch h⟩

theorem Extends.trans (h : before.Extends P now) (h' : now.Extends P later) :
    before.Extends P later := by
  obtain ⟨hdatabase, es, hes, hP⟩ := h
  obtain ⟨hdatabase', es', hes', hP'⟩ := h'
  refine ⟨hdatabase'.trans hdatabase, es ++ es', ?_, fun e he => ?_⟩
  · rw [hes', hes, List.append_assoc]
  · exact (List.mem_append.mp he).elim (hP e) (hP' e)

theorem Extends.mono (h : before.Extends P now) (hP : ∀ e, P e → P' e) : before.Extends P' now := by
  obtain ⟨hdatabase, es, hes, hall⟩ := h
  exact ⟨hdatabase, es, hes, fun e he => hP e (hall e he)⟩

theorem Extends.snoc (h : before.Extends P now) {e : Event} (he : P e) :
    before.Extends P { now with events := now.events ++ [e] } :=
  h.trans ⟨rfl, [e], rfl, fun _ h => List.mem_singleton.mp h ▸ he⟩

end Session

/-! ## Dialogues -/

namespace Dialogue

variable {α : Type} {P : Event → Prop} {before : Session} {sure : Prop} {Q : α → Prop}
  {work : Dialogue α}

theorem record_yields {e : Event} (h : P e) :
    (record e).Yields (before.Extends P) sure fun _ => True :=
  Work.yields_change fun _ hs => hs.snoc h

theorem ask_yields {e : Event} (h : P e) : (ask e).Yields (before.Extends P) False fun _ => True :=
  Work.yields_state.bind fun _ _ => (Work.yields_any _).bind fun _ _ => (record_yields h)

theorem execute_yields {statement : Statement} (h : P (.execute statement)) :
    (execute statement).Yields (before.Extends P) False fun _ => True :=
  (Work.yields_any _).bind fun _ _ => Work.yields_state.bind fun _ _ =>
    (record_yields h).bind fun _ _ => Work.yields_any _

variable (hcontrol : ∀ e, e.isControl = true → P e)

include hcontrol

theorem inConnection_yields (h : work.Yields (before.Extends P) False Q) :
    (inConnection work).Yields (before.Extends P) False Q := by
  refine (ask_yields (hcontrol _ rfl)).bind fun _ _ => h.attempt.bind fun outcome houtcome => ?_
  refine (record_yields (hcontrol _ rfl)).bind fun _ _ => ?_
  exact Work.yields_ofTraced houtcome.1 False.elim

theorem undo_yields (f : Fault) : (undo f : Dialogue α).Yields (before.Extends P) False Q :=
  (record_yields (hcontrol _ rfl)).bind fun _ _ =>
    Work.yields_ofTraced (fun _ h => nomatch h) False.elim

theorem inTransaction_yields (h : work.Yields (before.Extends P) False Q) :
    (inTransaction work).Yields (before.Extends P) False Q := by
  refine (ask_yields (hcontrol _ rfl)).bind fun _ _ => h.attempt.bind fun outcome houtcome => ?_
  cases outcome with
  | error f => exact undo_yields hcontrol f
  | ok a =>
      refine (ask_yields (hcontrol .commit rfl)).attempt.bind fun committed _ => ?_
      cases committed with
      | error f => exact undo_yields hcontrol f
      | ok _ => exact Work.yields_pure (houtcome.1 a rfl)

end Dialogue

/-! ## Services -/

namespace TableService

/-- The statements that the service of a table can run, where some records are offered to it. -/
inductive Runs (s : TableService) (offered : Record → Prop) : Statement → Prop
  | page (p : PageSelection) : Runs s offered ⟨s.table, .page p⟩
  | count (condition : Option Clause) : Runs s offered ⟨s.table, .count condition⟩
  | keyCheck (key : Record) : Runs s offered ⟨s.table, .keyCheck key⟩
  | insertion (values : Record) (hwritable : s.entity.readOnly = false) :
    Runs s offered ⟨s.table, .insertion values⟩
  | change {raw key : Record} (hwritable : s.entity.readOnly = false) (hraw : offered raw)
    (hkey : s.entity.coerce raw = .ok key) (hmissing : s.entity.missingKeys key = []) :
    Runs s offered ⟨s.table, .change (written s.entity false key) key⟩
  | removal {raw key : Record} (hwritable : s.entity.readOnly = false) (hraw : offered raw)
    (hkey : s.entity.coerce raw = .ok key) (hmissing : s.entity.missingKeys key = []) :
    Runs s offered ⟨s.table, .removal key⟩

/-- What the service of a table can ask of its database. -/
def Asks (s : TableService) (offered : Record → Prop) (e : Event) : Prop :=
  e.isControl = true ∨ ∃ statement, e = .execute statement ∧ s.Runs offered statement

variable {s : TableService} {offered : Record → Prop} {before : Session}

theorem asks_of_isControl {e : Event} (h : e.isControl = true) : s.Asks offered e := .inl h

theorem execute_yields {command : Command} (h : s.Runs offered ⟨s.table, command⟩) :
    (s.execute command).Yields (before.Extends (s.Asks offered)) False fun _ => True :=
  Dialogue.execute_yields (.inr ⟨_, rfl, h⟩)

theorem read_yields (p : PageSelection) (withCount : Bool) :
    (s.read p withCount).Yields (before.Extends (s.Asks offered)) False fun _ => True := by
  refine (execute_yields (.page p)).bind fun answer _ => (Work.yields_any _).bind fun records _ => ?_
  cases withCount with
  | true => exact (execute_yields (.count _)).bind fun answer _ => Work.yields_pure trivial
  | false => exact Work.yields_pure trivial

theorem fetch_yields (q : Query) :
    (s.fetch q).Yields (before.Extends (s.Asks offered)) False fun _ => True :=
  (Work.yields_any _).bind fun _ _ => (Work.yields_any _).bind fun _ _ =>
    Dialogue.inConnection_yields (fun _ => asks_of_isControl) (read_yields _ _)

theorem keyTaken_yields (r : Record) :
    (s.keyTaken r).Yields (before.Extends (s.Asks offered)) False fun _ => True :=
  (execute_yields (.keyCheck r)).bind fun _ _ => Work.yields_pure trivial

theorem insertRow_yields (hwritable : s.entity.readOnly = false) (keyed : Bool) (r : Record) :
    (s.insertRow keyed r).Yields (before.Extends (s.Asks offered)) False fun _ => True := by
  have hinsert : (s.execute (.insertion (written s.entity true r)) >>= fun answer =>
      (pure answer.insertedKey : Dialogue _)).Yields (before.Extends (s.Asks offered)) False
        fun _ => True :=
    (execute_yields (.insertion _ hwritable)).bind fun _ _ => Work.yields_pure trivial
  cases keyed with
  | false => exact hinsert
  | true =>
      refine (keyTaken_yields r).bind fun taken _ => ?_
      cases taken with
      | true => exact (Work.yields_any (Traced.fail _)).bind fun _ _ => hinsert
      | false => exact hinsert

theorem explainRefusal_yields (r : Record) (text : String) :
    (s.explainRefusal r text).Yields (before.Extends (s.Asks offered)) False fun _ => True := by
  refine (Dialogue.inConnection_yields (fun _ => asks_of_isControl) (keyTaken_yields r)).bind
    fun taken _ => ?_
  cases taken with
  | true => exact (Work.yields_any _).bind fun _ _ => Work.yields_any _
  | false => exact Work.yields_any _

/-- A write goes on only if the entity may be written. -/
theorem ensureWritable_yields (operation : String) :
    (Work.ofTraced (ensureWritable .tables s.entity.readOnly s.entity operation) :
      Dialogue Unit).Yields (before.Extends (s.Asks offered)) False
        fun _ => s.entity.readOnly = false := by
  refine Work.yields_ofTraced (fun _ h => ?_) False.elim
  cases hreadOnly : s.entity.readOnly with
  | false => rfl
  | true =>
      rw [hreadOnly] at h
      cases h

/-- What is read from a request is the record in the form of the fields. -/
theorem requested_yields (raw : Record) :
    (Work.ofResult (s.entity.requested raw) : Dialogue Record).Yields
      (before.Extends (s.Asks offered)) False fun r => s.entity.coerce raw = .ok r := by
  refine Work.yields_ofTraced (fun r h => ?_) False.elim
  replace h : s.entity.requested raw = .ok r := h
  rw [Entity.requested] at h
  cases hr : s.entity.coerce raw with
  | error f =>
      rw [hr] at h
      cases h
  | ok r' =>
      rw [hr] at h
      cases h
      rfl

theorem insert_yields (raw : Record) :
    (s.insert raw).Yields (before.Extends (s.Asks offered)) False fun _ => True := by
  refine (ensureWritable_yields "insert").bind fun _ hwritable => ?_
  refine (requested_yields raw).bind fun r _ => ?_
  have hinsert : (s.insertRow (isKeyed s.entity r) r).Yields (before.Extends (s.Asks offered)) False
      fun _ => True := insertRow_yields hwritable _ r
  have htransaction := Dialogue.inTransaction_yields (fun _ => asks_of_isControl) hinsert
  refine htransaction.attempt.bind fun outcome _ => ?_
  have hrest : ∀ told : Option (List Value),
      (do
        let key := Record.ofEntries (keyFrom r (told.getD []) 0 s.entity.keyNames)
        Work.note .tables .debug ((Value.dict key).describe ("Inserted " ++ s.entity.name ++ " ") "")
        return key : Dialogue Record).Yields (before.Extends (s.Asks offered)) False fun _ => True :=
    fun told => (Work.yields_any _).bind fun _ _ => Work.yields_pure trivial
  split
  · exact hrest _
  · dsimp only
    split
    · exact (explainRefusal_yields r _).bind fun told _ => hrest told
    · exact (Work.yields_any _).bind fun told _ => hrest told
  · exact (Work.yields_any _).bind fun told _ => hrest told

theorem missingKeys_of_missingFindings {e : Entity} {r : Record}
    (h : (e.missingFindings r).isEmpty = true) : e.missingKeys r = [] := by
  rw [Entity.missingFindings, List.isEmpty_iff, List.map_eq_nil_iff] at h
  exact h

theorem update_yields {raw : Record} (hraw : offered raw) :
    (s.update raw).Yields (before.Extends (s.Asks offered)) False fun _ => True := by
  refine (ensureWritable_yields "update").bind fun _ hwritable => ?_
  refine (requested_yields raw).bind fun r hr => ?_
  dsimp only
  split
  · next hmissing =>
      refine Dialogue.inTransaction_yields (fun _ => asks_of_isControl) ?_
      split
      · exact (keyTaken_yields r).bind fun _ _ => Work.yields_pure trivial
      · have hruns := Runs.change hwritable hraw hr (missingKeys_of_missingFindings hmissing)
        exact (execute_yields hruns).bind fun _ _ => Work.yields_pure trivial
  · exact Work.yields_pure trivial

theorem delete_yields {raw : Record} (hraw : offered raw) :
    (s.delete raw).Yields (before.Extends (s.Asks offered)) False fun _ => True := by
  refine (ensureWritable_yields "delete").bind fun _ hwritable => ?_
  refine (requested_yields raw).bind fun r hr => ?_
  dsimp only
  split
  · next hmissing =>
      refine Dialogue.inTransaction_yields (fun _ => asks_of_isControl) ?_
      have hruns := Runs.removal hwritable hraw hr (missingKeys_of_missingFindings hmissing)
      exact (execute_yields hruns).bind fun _ _ => Work.yields_pure trivial
  · exact Work.yields_pure trivial

end TableService

end Rowgate.Sql
