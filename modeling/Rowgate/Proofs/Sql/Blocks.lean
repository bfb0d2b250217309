import Rowgate.Proofs.Sql.KeyedWrite
import Rowgate.Proofs.Sql.Transaction

/-!
# Blocks whose every step can be refused

A database can refuse the start of a transaction, a statement, the commit and a connection. `Transaction`
and `Connection` are the ways that a block can go then, each with what was asked until the end and what
comes out. `Dialogue.Goes` says of work what it asks and what it comes to, also where it fails, so that
the ways of a block follow from those of the work in it (`transaction_goes`, `connection_goes`).
-/

namespace Rowgate.Sql

/-! ## Statements -/

/-- What is asked to run a statement: nothing if it cannot be put to a database at all. -/
def Statement.asked (statement : Statement) : List Event :=
  match statement.compile .sqlite with
  | .ok _ => [.execute statement]
  | .error _ => []

/-- What is read from the answer to a statement, if it is answered. -/
def Session.reading {α : Type} (s : Session) (statement : Statement) (read : Answer → α) :
    Except Fault α :=
  (statement.compile .sqlite).bind fun _ => (s.database.answer s.events statement).map read

theorem Statement.asked_of_reading {α : Type} {s : Session} {statement : Statement}
    {read : Answer → α} {a : α} (h : s.reading statement read = .ok a) :
    statement.asked = [.execute statement] := by
  obtain ⟨fragment, hcompile, -⟩ := Outcome.bind_eq_ok.mp h
  rw [asked, hcompile]

/-! ## Blocks that may fail -/

/-- The ways in which a transaction can go whose block asks `es` and comes to `x`. -/
inductive Transaction {α : Type} (session : Session) (es : List Event) (x : Except Fault α) :
    List Event → Except Fault α → Prop
  | notStarted {f : Fault} (h : session.database.permit session.events .start = .error f) :
      Transaction session es x [] (.error f)
  | failed {f : Fault} (hstart : session.database.permit session.events .start = .ok ())
      (hx : x = .error f) : Transaction session es x (.start :: es ++ [.rollback]) (.error f)
  | uncommitted {a : α} {f : Fault} (hstart : session.database.permit session.events .start = .ok ())
      (hx : x = .ok a)
      (hcommit : session.database.permit (session.events ++ .start :: es) .commit = .error f) :
      Transaction session es x (.start :: es ++ [.rollback]) (.error f)
  | committed {a : α} (hstart : session.database.permit session.events .start = .ok ())
      (hx : x = .ok a)
      (hcommit : session.database.permit (session.events ++ .start :: es) .commit = .ok ()) :
      Transaction session es x (.start :: es ++ [.commit]) (.ok a)

/-- The ways in which work on a connection can go that asks `es` and comes to `x`. -/
inductive Connection {α : Type} (session : Session) (es : List Event) (x : Except Fault α) :
    List Event → Except Fault α → Prop
  | refused {f : Fault} (h : session.database.permit session.events .connect = .error f) :
      Connection session es x [] (.error f)
  | closed (h : session.database.permit session.events .connect = .ok ()) :
      Connection session es x (.connect :: es ++ [.close]) x

/-- Statements between the start and the end of a transaction, or nothing. -/
inductive Enclosed : List Event → Prop
  | nothing : Enclosed []
  | between {es : List Event} {last : Event} (h : ∀ e ∈ es, e.isStatement = true)
      (hlast : last = .commit ∨ last = .rollback) : Enclosed (.start :: es ++ [last])

namespace Transaction

variable {α : Type} {session : Session} {es later : List Event} {x y : Except Fault α}

theorem enclosed (h : Transaction session es x later y) (hes : ∀ e ∈ es, e.isStatement = true) :
    Enclosed later := by
  cases h with
  | notStarted _ => exact .nothing
  | failed _ _ => exact .between hes (.inr rfl)
  | uncommitted _ _ _ => exact .between hes (.inr rfl)
  | committed _ _ _ => exact .between hes (.inl rfl)

theorem writes (h : Transaction session es x later y) :
    (later.filter Event.isWrite).Sublist (es.filter Event.isWrite) := by
  have hwrap : ∀ last : Event, last.isWrite = false →
      ((Event.start :: es ++ [last]).filter Event.isWrite) = es.filter Event.isWrite := by
    intro last hlast
    have hend : [last].filter Event.isWrite = [] :=
      List.filter_cons_of_neg (by rw [hlast]; exact Bool.false_ne_true)
    rw [List.cons_append, List.filter_cons_of_neg Bool.false_ne_true, List.filter_append, hend,
      List.append_nil]
  cases h with
  | notStarted _ => exact List.nil_sublist _
  | failed _ _ => rw [hwrap .rollback rfl]
  | uncommitted _ _ _ => rw [hwrap .rollback rfl]
  | committed _ _ _ => rw [hwrap .commit rfl]

theorem uncommitted_of_error {f : Fault} (h : Transaction session es x later y) (hy : y = .error f)
    (hes : ∀ e ∈ es, e.isStatement = true) : .commit ∉ later := by
  have hcommit : Event.commit ∉ Event.start :: es ++ [.rollback] := by
    intro hmem
    rcases List.mem_cons.mp hmem with hstart | hmem
    · cases hstart
    · rcases List.mem_append.mp hmem with hmem | hlast
      · cases hes _ hmem
      · cases List.mem_singleton.mp hlast
  cases h with
  | notStarted _ => exact List.not_mem_nil
  | failed _ _ => exact hcommit
  | uncommitted _ _ _ => exact hcommit
  | committed _ _ _ => cases hy

end Transaction

theorem Connection.eq_nil_or {α : Type} {session : Session} {es later : List Event}
    {x y : Except Fault α} (h : Connection session es x later y) :
    later = [] ∨ later = .connect :: es ++ [.close] := by
  cases h with
  | refused _ => exact .inl rfl
  | closed _ => exact .inr rfl

/-! ## Work in blocks -/

namespace Dialogue

variable {α β : Type} {statement : Statement} {s : Session} {work : Dialogue α} {a : α} {f : Fault}
  {next : α → Dialogue β} {es es' : List Event} {x : Except Fault α} {y : Except Fault β} {e : Event}

/-- Whether work asks for some things and comes to an outcome. -/
def Goes (work : Dialogue α) (s : Session) (es : List Event) (x : Except Fault α) : Prop :=
  (work.run s).1 = s.after es ∧ (work.run s).2.result = x

theorem Goes.andThen (h : Goes work s es (.ok a)) (hnext : Goes (next a) (s.after es) es' y) :
    Goes (work >>= next) s (es ++ es') y := by
  rw [Goes, Work.run_bind, h.2, h.1]
  exact ⟨hnext.1.trans (Session.after_after s es es'), hnext.2⟩

theorem Goes.stop (h : Goes work s es (.error f)) : Goes (work >>= next) s es (.error f) := by
  rw [Goes, Work.run_bind, h.2]
  exact ⟨h.1, rfl⟩

theorem Goes.attempt (h : Goes work s es x) : Goes work.attempt s es (.ok x) :=
  ⟨h.1, congrArg Except.ok h.2⟩

theorem goes_ofTraced (t : Traced α) : Goes (Work.ofTraced t) s [] t.result :=
  ⟨(congrArg (Session.mk _) (List.append_nil _)).symm, rfl⟩

theorem goes_pure (a : α) : Goes (pure a) s [] (.ok a) := goes_ofTraced (pure a)

theorem goes_fail (f : Fault) : Goes (Work.fail f : Dialogue α) s [] (.error f) :=
  goes_ofTraced (Traced.fail f)

/-- Work goes on as before after work that asks for nothing. -/
theorem Goes.after_nothing (h : Goes work s [] (.ok a)) (hnext : Goes (next a) s es' y) :
    Goes (work >>= next) s es' y :=
  h.andThen (by rwa [Session.after, List.append_nil])

/-- Work that asks for nothing goes behind. -/
theorem Goes.then_nothing (h : Goes work s es (.ok a)) (hnext : Goes (next a) (s.after es) [] y) :
    Goes (work >>= next) s es y := by
  have hall := h.andThen hnext
  rwa [List.append_nil] at hall

theorem goes_record (e : Event) : Goes (record e) s [e] (.ok ()) := ⟨rfl, rfl⟩

theorem goes_ask (h : s.database.permit s.events e = .ok ()) : Goes (ask e) s [e] (.ok ()) := by
  have hresult : ((ask e).run s).2.result = .ok () := result_ask.trans h
  exact ⟨state_ask hresult, hresult⟩

theorem goes_ask_refused (h : s.database.permit s.events e = .error f) :
    Goes (ask e) s [] (.error f) := by
  have hpermit : Goes (Work.ofResult (s.database.permit s.events e)) s [] (.error f) :=
    h ▸ goes_ofTraced (Traced.ofResult (s.database.permit s.events e))
  show Goes (Work.ofResult (s.database.permit s.events e) >>= fun _ => record e) s [] (.error f)
  exact hpermit.stop

theorem goes_execute (statement : Statement) (s : Session) :
    Goes (execute statement) s statement.asked ((statement.compile .sqlite).bind fun _ =>
      s.database.answer s.events statement) := by
  refine ⟨?_, result_execute⟩
  rw [Statement.asked]
  cases h : statement.compile .sqlite with
  | ok fragment => exact state_execute h
  | error f =>
      rw [execute, Work.run_bind, Work.run_ofResult, Traced.result_ofResult, h, Session.after,
        List.append_nil]

/-- What is read from the answer to a statement is passed on. -/
theorem goes_reading (statement : Statement) (read : Answer → α) :
    Goes (execute statement >>= fun a => pure (read a)) s statement.asked (s.reading statement read) := by
  have hexecute := goes_execute statement s
  rw [Session.reading]
  cases hcompile : statement.compile .sqlite with
  | error f =>
      rw [hcompile] at hexecute
      exact hexecute.stop
  | ok fragment =>
      rw [hcompile] at hexecute
      cases hanswer : s.database.answer s.events statement with
      | error f =>
          rw [hanswer] at hexecute
          exact hexecute.stop
      | ok a =>
          rw [hanswer] at hexecute
          exact hexecute.then_nothing (goes_pure (read a))

theorem goes_undo (f : Fault) : Goes (undo f : Dialogue α) s [.rollback] (.error f) :=
  (goes_record .rollback).andThen (goes_fail f)

/-- A transaction goes in one of four ways. -/
theorem transaction_goes (hwork : Goes work (s.after [.start]) es x) :
    ∃ later outcome, Goes (inTransaction work) s later outcome ∧
      Transaction s es x later outcome := by
  cases hstart : s.database.permit s.events .start with
  | error f => exact ⟨[], _, (goes_ask_refused hstart).stop, .notStarted hstart⟩
  | ok u =>
      have hbegun := goes_ask hstart
      cases x with
      | error f =>
          refine ⟨_, _, ?_, .failed hstart rfl⟩
          exact hbegun.andThen (hwork.attempt.andThen (goes_undo f))
      | ok a =>
          have hevents : ((s.after [.start]).after es).events = s.events ++ .start :: es := by
            rw [Session.after_after]
            rfl
          cases hcommit : s.database.permit (s.events ++ .start :: es) .commit with
          | error f =>
              have hask : Goes (ask .commit) ((s.after [.start]).after es) [] (.error f) :=
                goes_ask_refused (hevents ▸ hcommit)
              refine ⟨_, _, ?_, .uncommitted hstart rfl hcommit⟩
              exact hbegun.andThen (hwork.attempt.andThen (hask.attempt.after_nothing (goes_undo f)))
          | ok u =>
              have hask : Goes (ask .commit) ((s.after [.start]).after es) [.commit] (.ok ()) :=
                goes_ask (hevents ▸ hcommit)
              refine ⟨_, _, ?_, .committed hstart rfl hcommit⟩
              refine hbegun.andThen (hwork.attempt.andThen ?_)
              exact hask.attempt.then_nothing (goes_pure a)

/-- Work on a connection goes in one of two ways. -/
theorem connection_goes (hwork : Goes work (s.after [.connect]) es x) :
    ∃ later outcome, Goes (inConnection work) s later outcome ∧
      Connection s es x later outcome := by
  cases hconnect : s.database.permit s.events .connect with
  | error f => exact ⟨[], _, (goes_ask_refused hconnect).stop, .refused hconnect⟩
  | ok u =>
      refine ⟨_, _, ?_, .closed hconnect⟩
      refine (goes_ask hconnect).andThen (hwork.attempt.andThen ?_)
      exact (goes_record .close).then_nothing (goes_ofTraced (Traced.ofResult x))

end Dialogue

/-! ## Faults of a database -/

/-- Whether no fault of a database is the one that a key is taken: that is for the service to tell. -/
structure Database.TellsNoKeys (d : Database) : Prop where
  answer : ∀ events statement entity key,
    d.answer events statement ≠ .error (.duplicateKey entity key)
  permit : ∀ events e entity key, d.permit events e ≠ .error (.duplicateKey entity key)

theorem Statement.compile_ne_duplicateKey {statement : Statement} {entity : String} {key : Record} :
    statement.compile .sqlite ≠ .error (.duplicateKey entity key) := by
  rw [compile, Table.compile]
  split
  · exact nofun
  · split
    · next f hf =>
        rw [Piece.fault?] at hf
        intro h
        cases h
        split at hf
        · cases hf
        · split at hf <;> cases hf
    · exact nofun

theorem Session.reading_ne_duplicateKey {α : Type} {s : Session} {statement : Statement}
    {read : Answer → α} {entity : String} {key : Record} (h : s.database.TellsNoKeys) :
    s.reading statement read ≠ .error (.duplicateKey entity key) := by
  rw [reading]
  cases hcompile : statement.compile .sqlite with
  | error f =>
      intro hf
      cases hf
      exact Statement.compile_ne_duplicateKey hcompile
  | ok fragment =>
      cases ha : s.database.answer s.events statement with
      | error f =>
          intro hf
          cases hf
          exact h.answer s.events statement entity key ha
      | ok a => exact nofun

theorem Database.tellsNoKeys_answering {answers : List (Except Fault Answer)}
    (h : ∀ answer ∈ answers, ∀ entity key, answer ≠ .error (.duplicateKey entity key)) :
    (Database.answering answers).TellsNoKeys where
  answer events statement entity key := by
    show Option.getD _ _ ≠ _
    cases hanswer : answers[(events.filter Event.isStatement).length]? with
    | none => exact nofun
    | some answer => exact h answer (List.mem_of_getElem? hanswer) entity key
  permit _ _ _ _ := nofun

end Rowgate.Sql
