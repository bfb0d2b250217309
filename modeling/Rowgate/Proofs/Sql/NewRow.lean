import Rowgate.Proofs.Number.Digits
import Rowgate.Proofs.Sql.Blocks
import Rowgate.Proofs.Sql.Insertion

/-!
# What becomes of a new row

Everything that an insertion asks of a database can be refused: the start of its transaction, the
look-up of the key, the statement that inserts, the commit, and after a refused row a new connection
and a second look-up. `Trial` is the ways that the block in the transaction can go, and `Aftermath` the
ways that an insertion can go on when its transaction is over, each with what is asked until the end.
From them follows what a client is told and what the database was asked to keep (`insert_accounted`).

That a key is taken is told only if the key can be written into a message, which the number of digits of
an integer limits: `long_key_not_told` is a key that is taken and too long.
-/

namespace Rowgate.Sql

/-! ## Trying a row -/

namespace TableService

open Dialogue

variable {s : TableService} {session : Session} {sent r : Record} {es es' : List Event} {f : Fault}
  {text : String} {told : Option (List Value)}

/-- What looking up the key of a record comes to. -/
def looksUp (s : TableService) (session : Session) (r : Record) : Except Fault Bool :=
  session.reading ⟨s.table, .keyCheck r⟩ fun a => !a.rows.isEmpty

/-- What the statement that inserts a row comes to: the key that the database tells. -/
def inserts (s : TableService) (session : Session) (r : Record) :
    Except Fault (Option (List Value)) :=
  session.reading (s.insertion r) (·.insertedKey)

theorem goes_keyTaken (s : TableService) (session : Session) (r : Record) :
    Goes (s.keyTaken r) session (Statement.asked ⟨s.table, .keyCheck r⟩) (s.looksUp session r) :=
  goes_reading _ _

/-- The ways in which the block of an insertion can go. -/
inductive Trial (s : TableService) (session : Session) (r : Record) :
    List Event → Except Fault (Option (List Value)) → Prop
  | unchecked {f : Fault} (hkeyed : isKeyed s.entity r = true) (h : s.looksUp session r = .error f) :
      Trial s session r (Statement.asked ⟨s.table, .keyCheck r⟩) (.error f)
  | taken (hkeyed : isKeyed s.entity r = true) (h : s.looksUp session r = .ok true) :
      Trial s session r [.execute ⟨s.table, .keyCheck r⟩] (.error (s.duplicate r))
  | tried (hfree : isKeyed s.entity r = true → s.looksUp session r = .ok false) :
      Trial s session r (s.lookups r ++ (s.insertion r).asked)
        (s.inserts (session.after (s.lookups r)) r)

theorem trial_goes (s : TableService) (session : Session) (r : Record) :
    ∃ es x, Goes (s.insertRow (isKeyed s.entity r) r) session es x ∧ s.Trial session r es x := by
  have hinserts : ∀ session, Goes (do
      let answer ← s.execute (.insertion (written s.entity true r))
      return answer.insertedKey) session (s.insertion r).asked (s.inserts session r) :=
    fun _ => goes_reading _ _
  have hlooks := goes_keyTaken s session r
  rw [insertRow]
  cases hkeyed : isKeyed s.entity r with
  | false =>
      have hlookups : s.lookups r = [] := by rw [lookups, hkeyed]; rfl
      have htrial : s.Trial session r _ _ := .tried fun h => absurd (hkeyed.symm.trans h) (by decide)
      rw [hlookups] at htrial
      refine ⟨_, _, ?_, htrial⟩
      rw [Session.after, List.append_nil]
      exact hinserts session
  | true =>
      cases hlook : s.looksUp session r with
      | error f =>
          rw [hlook] at hlooks
          exact ⟨_, _, hlooks.stop, .unchecked hkeyed hlook⟩
      | ok taken =>
          rw [hlook, Statement.asked_of_reading hlook] at hlooks
          cases taken with
          | true =>
              refine ⟨_, _, ?_, .taken hkeyed hlook⟩
              exact hlooks.then_nothing (goes_fail (s.duplicate r)).stop
          | false =>
              have hlookups : s.lookups r = [.execute ⟨s.table, .keyCheck r⟩] := by
                rw [lookups, hkeyed]
                rfl
              refine ⟨_, _, ?_, .tried fun _ => hlook⟩
              rw [hlookups]
              exact hlooks.andThen (hinserts _)

/-! ## What comes of it -/

/-- The key of a new row, of which the database told some values. -/
def newKey (s : TableService) (r : Record) (told : Option (List Value)) : Record :=
  Record.ofEntries (keyFrom r (told.getD []) 0 s.entity.keyNames)

/-- The transaction in which a row is tried. -/
def attempt (s : TableService) (r : Record) : Dialogue (Option (List Value)) :=
  inTransaction (s.insertRow (isKeyed s.entity r) r)

/-- The look-up after a refused row, on a connection of its own. -/
def lookAgain (s : TableService) (r : Record) : Dialogue Bool := inConnection (s.keyTaken r)

/-- What is told of a row that the database refused, by what the second look-up comes to. -/
def explanation (s : TableService) (r : Record) (text : String) : Except Fault Bool → Fault
  | .ok true => s.duplicate r
  | .ok false => .database (.integrity text)
  | .error f => f

theorem goes_explainRefusal {looked : Except Fault Bool}
    (h : Goes (s.lookAgain r) session es looked) :
    Goes (s.explainRefusal r text) session es (.error (s.explanation r text looked)) := by
  rw [explainRefusal]
  rw [lookAgain] at h
  cases looked with
  | error f => exact h.stop
  | ok taken =>
      cases taken with
      | true =>
          exact h.then_nothing ((goes_ofTraced (Traced.note .tables .debug _)).after_nothing
            (goes_fail (s.duplicate r)))
      | false => exact h.then_nothing (goes_fail (.database (.integrity text)))

/-- What an insertion comes to after a transaction that comes to `x`, where a second look-up would ask
`again` and come to `looked`. -/
inductive Aftermath (s : TableService) (r : Record) (x : Except Fault (Option (List Value)))
    (again : List Event) (looked : Except Fault Bool) : List Event → Except Fault Record → Prop
  | kept {told : Option (List Value)} (hx : x = .ok told) :
      Aftermath s r x again looked [] (.ok (s.newKey r told))
  | failed {f : Fault} (hx : x = .error f) (hf : ∀ text, f ≠ .database (.integrity text)) :
      Aftermath s r x again looked [] (.error f)
  | unkeyed {text : String} (hx : x = .error (.database (.integrity text)))
      (hkeyed : isKeyed s.entity r = false) :
      Aftermath s r x again looked [] (.error (.database (.integrity text)))
  | explained {text : String} (hx : x = .error (.database (.integrity text)))
      (hkeyed : isKeyed s.entity r = true) :
      Aftermath s r x again looked again (.error (s.explanation r text looked))

section Insert

variable (hwritable : s.entity.readOnly = false) (hr : s.entity.coerce sent = .ok r)

include hwritable hr

theorem goes_insert {y : Except Fault Record} {x : Except Fault (Option (List Value))}
    (h : Goes (s.attempt r) session es x)
    (hthen : Goes (do
      let told ← match x with
        | .ok told => pure told
        | .error (.database (.integrity text)) =>
          if isKeyed s.entity r then s.explainRefusal r text
          else Work.fail (.database (.integrity text))
        | .error f => Work.fail f
      Work.note .tables .debug
        ((Value.dict (s.newKey r told)).describe ("Inserted " ++ s.entity.name ++ " ") "")
      return s.newKey r told) (session.after es) es' y) :
    Goes (s.insert sent) session (es ++ es') y := by
  have hrequested : s.entity.requested sent = .ok r := Entity.requested_eq_ok.mpr hr
  have hcoerce : Goes (Work.ofResult (s.entity.requested sent)) session [] (.ok r) :=
    hrequested ▸ goes_ofTraced (Traced.ofResult (s.entity.requested sent))
  rw [insert, hwritable]
  exact (goes_pure ()).after_nothing (hcoerce.after_nothing (h.attempt.andThen hthen))

/-- A row that is kept gives its key. -/
theorem goes_insert_ok (h : Goes (s.attempt r) session es (.ok told)) :
    Goes (s.insert sent) session es (.ok (s.newKey r told)) := by
  rw [← List.append_nil es]
  refine goes_insert hwritable hr h ((goes_pure told).after_nothing ?_)
  exact (goes_ofTraced (Traced.note .tables .debug _)).after_nothing (goes_pure _)

/-- Every fault but the refusal of a row is passed on. -/
theorem goes_insert_error (h : Goes (s.attempt r) session es (.error f))
    (hf : ∀ text, f ≠ .database (.integrity text)) :
    Goes (s.insert sent) session es (.error f) := by
  rw [← List.append_nil es]
  refine goes_insert hwritable hr h ?_
  dsimp only
  split
  · next heq => cases heq
  · next text heq => exact absurd (Except.error.inj heq) (hf text)
  · next heq =>
      cases heq
      exact (goes_fail f).stop

/-- The refusal of a row whose key is not all given is passed on. -/
theorem goes_insert_unkeyed (hkeyed : isKeyed s.entity r = false)
    (h : Goes (s.attempt r) session es (.error (.database (.integrity text)))) :
    Goes (s.insert sent) session es (.error (.database (.integrity text))) := by
  rw [← List.append_nil es]
  refine goes_insert hwritable hr h ?_
  dsimp only
  rw [hkeyed, if_neg Bool.false_ne_true]
  exact (goes_fail _).stop

/-- The refusal of a row whose key is given is explained. -/
theorem goes_insert_keyed {looked : Except Fault Bool} (hkeyed : isKeyed s.entity r = true)
    (h : Goes (s.attempt r) session es (.error (.database (.integrity text))))
    (hlook : Goes (s.lookAgain r) (session.after es) es' looked) :
    Goes (s.insert sent) session (es ++ es') (.error (s.explanation r text looked)) := by
  refine goes_insert hwritable hr h ?_
  dsimp only
  rw [hkeyed, if_pos rfl]
  exact (goes_explainRefusal hlook).stop

/-- An insertion ends with its transaction, or with a second look-up. -/
theorem insert_goes {x : Except Fault (Option (List Value))} {looked : Except Fault Bool}
    (h : Goes (s.attempt r) session es x) (hlook : Goes (s.lookAgain r) (session.after es) es' looked) :
    ∃ later outcome, Goes (s.insert sent) session (es ++ later) outcome ∧
      s.Aftermath r x es' looked later outcome := by
  have hpassed : ∀ outcome, Goes (s.insert sent) session es outcome →
      Goes (s.insert sent) session (es ++ []) outcome := fun _ h => by rwa [List.append_nil]
  cases x with
  | ok told => exact ⟨[], _, hpassed _ (goes_insert_ok hwritable hr h), .kept rfl⟩
  | error f =>
      by_cases hf : ∃ text, f = .database (.integrity text)
      · obtain ⟨text, rfl⟩ := hf
        cases hkeyed : isKeyed s.entity r with
        | false =>
            exact ⟨[], _, hpassed _ (goes_insert_unkeyed hwritable hr hkeyed h), .unkeyed rfl hkeyed⟩
        | true =>
            exact ⟨es', _, goes_insert_keyed hwritable hr hkeyed h hlook, .explained rfl hkeyed⟩
      · have hother : ∀ text, f ≠ .database (.integrity text) := fun text he => hf ⟨text, he⟩
        exact ⟨[], _, hpassed _ (goes_insert_error hwritable hr h hother), .failed rfl hother⟩

end Insert

/-! ## The whole of it -/

/-- Whether the look-up in the transaction finds the key. -/
def Finds (s : TableService) (session : Session) (r : Record) : Prop :=
  session.database.permit session.events .start = .ok () ∧
    s.looksUp (session.after [.start]) r = .ok true

/-- Whether the database refuses the row, or the transaction that it is in. -/
def Refused (s : TableService) (session : Session) (r : Record) (text : String) : Prop :=
  ((s.attempt r).run session).2.result = .error (.database (.integrity text))

/-- What the second look-up comes to, after the transaction. -/
def looksAgain (s : TableService) (session : Session) (r : Record) : Except Fault Bool :=
  ((s.lookAgain r).run ((s.attempt r).run session).1).2.result

/-- Whether the key of a record can be written into a message. -/
def Reportable (s : TableService) (r : Record) : Prop :=
  ∃ text, (Value.dict (s.entity.keyRecord r)).literal = .ok text

/-- What an insertion comes to, of which `tried` is asked in its transaction and `looked` after it. -/
structure Accounted (s : TableService) (session : Session) (r : Record) (tried looked : List Event)
    (outcome : Except Fault Record) : Prop where
  /-- That the key is taken is told where all of it is given and one of the look-ups finds it, if the
  key can be told. -/
  duplicate : (∃ key, outcome = .error (.duplicateKey s.entity.name key)) ↔
    isKeyed s.entity r = true ∧ s.Reportable r ∧
      (s.Finds session r ∨ ∃ text, s.Refused session r text ∧ s.looksAgain session r = .ok true)
  /-- Where the first look-up finds the key, no row is tried and the transaction is rolled back. -/
  found : isKeyed s.entity r = true → s.Finds session r →
    tried = [.start, .execute ⟨s.table, .keyCheck r⟩, .rollback] ∧ looked = [] ∧
      outcome = .error (s.duplicate r)
  /-- A refusal is passed on where the key is not all given or is not found again. -/
  refused : ∀ text, s.Refused session r text → (outcome = .error (.database (.integrity text)) ↔
    isKeyed s.entity r = false ∨ s.looksAgain session r = .ok false ∨
      s.looksAgain session r = .error (.database (.integrity text)))
  /-- A fault of the second look-up is passed on. -/
  unlooked : ∀ text f, s.Refused session r text → isKeyed s.entity r = true →
    s.looksAgain session r = .error f → outcome = .error f
  /-- Every other fault of the transaction is passed on. -/
  failed : ∀ f, ((s.attempt r).run session).2.result = .error f → (∀ text, ¬ s.Refused session r text) →
    outcome = .error f
  /-- A transaction that comes out well gives the key of the row. -/
  kept : ∀ told, ((s.attempt r).run session).2.result = .ok told → outcome = .ok (s.newKey r told)
  /-- What is asked in the transaction stands between its start and its end. -/
  enclosed : Enclosed tried
  /-- After it nothing is asked but to look the key up again, on a connection of its own. -/
  again : looked = [] ∨ looked = .connect :: Statement.asked ⟨s.table, .keyCheck r⟩ ++ [.close]
  /-- At most one statement writes. -/
  inserted : ((tried ++ looked).filter Event.isWrite).Sublist [.execute (s.insertion r)]
  /-- What fails is not committed. -/
  uncommitted : ∀ f, outcome = .error f → .commit ∉ tried ++ looked

/-! ## The transaction -/

theorem Trial.isStatement {x : Except Fault (Option (List Value))} (h : s.Trial session r es x) :
    ∀ e ∈ es, e.isStatement = true := by
  have hasked : ∀ statement : Statement, ∀ e ∈ statement.asked, e.isStatement = true := by
    intro statement e he
    rw [Statement.asked] at he
    split at he
    · rw [List.mem_singleton.mp he]
      rfl
    · cases he
  cases h with
  | unchecked _ _ => exact hasked _
  | taken _ _ => exact List.forall_mem_singleton.mpr rfl
  | tried _ =>
      refine List.forall_mem_append.mpr ⟨?_, hasked _⟩
      rw [lookups]
      split
      · exact List.forall_mem_singleton.mpr rfl
      · exact fun _ he => absurd he List.not_mem_nil

theorem filter_isWrite_asked (s : TableService) (r : Record) :
    (Statement.asked ⟨s.table, .keyCheck r⟩).filter Event.isWrite = [] := by
  rw [Statement.asked]
  split <;> rfl

theorem Trial.writes {x : Except Fault (Option (List Value))} (h : s.Trial session r es x) :
    (es.filter Event.isWrite).Sublist [.execute (s.insertion r)] := by
  cases h with
  | unchecked _ _ =>
      rw [filter_isWrite_asked]
      exact List.nil_sublist _
  | taken _ _ => exact List.nil_sublist _
  | tried _ =>
      have hlookups : (s.lookups r).filter Event.isWrite = [] := by
        rw [lookups]
        split <;> rfl
      rw [List.filter_append, hlookups, Statement.asked]
      split
      · exact List.Sublist.refl _
      · exact List.nil_sublist _

variable {later : List Event} {x y : Except Fault (Option (List Value))}

/-- A key that is found ends the transaction. -/
theorem taken_of_finds (htrial : s.Trial (session.after [.start]) r es x)
    (h : Transaction session es x later y) (hkeyed : isKeyed s.entity r = true)
    (hfinds : s.Finds session r) :
    later = [.start, .execute ⟨s.table, .keyCheck r⟩, .rollback] ∧ y = .error (s.duplicate r) := by
  obtain ⟨hstart, hlook⟩ := hfinds
  have htaken : es = [.execute ⟨s.table, .keyCheck r⟩] ∧ x = .error (s.duplicate r) := by
    cases htrial with
    | unchecked _ hfault =>
        rw [hlook] at hfault
        cases hfault
    | taken _ _ => exact ⟨rfl, rfl⟩
    | tried hfree =>
        have hfree := hfree hkeyed
        rw [hlook] at hfree
        cases hfree
  obtain ⟨rfl, rfl⟩ := htaken
  cases h with
  | notStarted hrefused =>
      rw [hstart] at hrefused
      cases hrefused
  | failed _ hx =>
      cases hx
      exact ⟨rfl, rfl⟩
  | uncommitted _ hx _ => cases hx
  | committed _ hx _ => cases hx

/-- Only a look-up that finds the key makes a transaction fail for it. -/
theorem finds_of_duplicate (hdatabase : session.database.TellsNoKeys)
    (htrial : s.Trial (session.after [.start]) r es x) (h : Transaction session es x later y)
    {entity : String} {key : Record} (hy : y = .error (.duplicateKey entity key)) :
    isKeyed s.entity r = true ∧ s.Finds session r := by
  cases h with
  | notStarted hrefused =>
      cases hy
      exact absurd hrefused (hdatabase.permit _ _ _ _)
  | uncommitted _ _ hcommit =>
      cases hy
      exact absurd hcommit (hdatabase.permit _ _ _ _)
  | committed _ _ _ => cases hy
  | failed hstart hx =>
      cases hy
      cases htrial with
      | unchecked _ hfault =>
          cases hx
          exact absurd hfault (Session.reading_ne_duplicateKey hdatabase)
      | taken hkeyed hlook => exact ⟨hkeyed, hstart, hlook⟩
      | tried _ => exact absurd hx (Session.reading_ne_duplicateKey hdatabase)

/-! ## Every way together -/

theorem duplicate_ne_integrity (s : TableService) (r : Record) (text : String) :
    s.duplicate r ≠ .database (.integrity text) := by
  intro h
  rw [duplicate, Fault.ofDuplicateKey] at h
  split at h
  · cases h
  · cases h

theorem duplicate_eq_iff :
    (∃ key, s.duplicate r = .duplicateKey s.entity.name key) ↔ s.Reportable r := by
  rw [duplicate, Fault.ofDuplicateKey, Reportable]
  cases (Value.dict (s.entity.keyRecord r)).literal <;> simp

variable {again looked tried : List Event} {z : Except Fault Bool} {outcome : Except Fault Record}

/-- Every fault of the transaction but the refusal of the row is passed on. -/
theorem Aftermath.passed (h : s.Aftermath r y again z looked outcome) {f : Fault}
    (hy : y = .error f) (hf : ∀ text, f ≠ .database (.integrity text)) :
    looked = [] ∧ outcome = .error f := by
  cases h with
  | kept hx => cases hx.symm.trans hy
  | failed hx _ =>
      cases hx.symm.trans hy
      exact ⟨rfl, rfl⟩
  | unkeyed hx _ => exact absurd (Except.error.inj (hy.symm.trans hx)) (hf _)
  | explained hx _ => exact absurd (Except.error.inj (hy.symm.trans hx)) (hf _)

theorem Aftermath.unexplained (h : s.Aftermath r y again z looked outcome) {text : String}
    (hy : y = .error (.database (.integrity text))) (hkeyed : isKeyed s.entity r = false) :
    outcome = .error (.database (.integrity text)) := by
  cases h with
  | kept hx => cases hx.symm.trans hy
  | failed hx hf => exact absurd (Except.error.inj (hx.symm.trans hy)) (hf text)
  | unkeyed hx _ =>
      cases hx.symm.trans hy
      rfl
  | explained _ hall => cases hkeyed.symm.trans hall

/-- The refusal of a row whose key is given is explained by the second look-up. -/
theorem Aftermath.explains (h : s.Aftermath r y again z looked outcome) {text : String}
    (hy : y = .error (.database (.integrity text))) (hkeyed : isKeyed s.entity r = true) :
    outcome = .error (s.explanation r text z) := by
  cases h with
  | kept hx => cases hx.symm.trans hy
  | failed hx hf => exact absurd (Except.error.inj (hx.symm.trans hy)) (hf text)
  | unkeyed _ hnot => cases hkeyed.symm.trans hnot
  | explained hx _ =>
      cases hx.symm.trans hy
      rfl

theorem Aftermath.refused (h : s.Aftermath r y again z looked outcome) {text : String}
    (hy : y = .error (.database (.integrity text))) :
    outcome = .error (.database (.integrity text)) ↔
      isKeyed s.entity r = false ∨ z = .ok false ∨ z = .error (.database (.integrity text)) := by
  cases hkeyed : isKeyed s.entity r with
  | false => exact iff_of_true (h.unexplained hy hkeyed) (.inl rfl)
  | true =>
      rw [h.explains hy hkeyed]
      cases z with
      | error f => simp [explanation]
      | ok taken =>
          cases taken with
          | false => simp [explanation]
          | true => simpa [explanation] using duplicate_ne_integrity s r text

/-- What is told as a taken key was found by one of the look-ups. -/
theorem Aftermath.exists_of_duplicate (h : s.Aftermath r y again z looked outcome) {key : Record}
    (houtcome : outcome = .error (.duplicateKey s.entity.name key))
    (hz : ∀ entity key, z ≠ .error (.duplicateKey entity key)) :
    y = .error (.duplicateKey s.entity.name key) ∨
      isKeyed s.entity r = true ∧ s.Reportable r ∧
        ∃ text, y = .error (.database (.integrity text)) ∧ z = .ok true := by
  cases h with
  | kept _ => cases houtcome
  | unkeyed _ _ => cases houtcome
  | failed hy _ =>
      cases houtcome
      exact .inl hy
  | @explained text hy hkeyed =>
      have hexplained := Except.error.inj houtcome
      cases z with
      | error f => exact absurd (congrArg Except.error hexplained) (hz _ _)
      | ok taken =>
          cases taken with
          | false => cases hexplained
          | true => exact .inr ⟨hkeyed, duplicate_eq_iff.mp ⟨key, hexplained⟩, text, hy, rfl⟩

theorem Aftermath.duplicate (h : s.Aftermath r y again z looked outcome)
    (hdatabase : session.database.TellsNoKeys)
    (hz : ∀ entity key, z ≠ .error (.duplicateKey entity key))
    (htrial : s.Trial (session.after [.start]) r es x)
    (htransaction : Transaction session es x tried y) :
    (∃ key, outcome = .error (.duplicateKey s.entity.name key)) ↔
      isKeyed s.entity r = true ∧ s.Reportable r ∧
        (s.Finds session r ∨ ∃ text, y = .error (.database (.integrity text)) ∧ z = .ok true) := by
  constructor
  · rintro ⟨key, houtcome⟩
    rcases h.exists_of_duplicate houtcome hz with hy | ⟨hkeyed, hreport, hagain⟩
    · obtain ⟨hkeyed, hfinds⟩ := finds_of_duplicate hdatabase htrial htransaction hy
      have htaken := (taken_of_finds htrial htransaction hkeyed hfinds).2
      have hkey := Except.error.inj (htaken.symm.trans hy)
      exact ⟨hkeyed, duplicate_eq_iff.mp ⟨key, hkey⟩, .inl hfinds⟩
    · exact ⟨hkeyed, hreport, .inr hagain⟩
  · rintro ⟨hkeyed, hreport, hfound⟩
    obtain ⟨key, hkey⟩ := duplicate_eq_iff.mpr hreport
    refine ⟨key, hkey ▸ ?_⟩
    rcases hfound with hfinds | ⟨text, hy, rfl⟩
    · have htaken := (taken_of_finds htrial htransaction hkeyed hfinds).2
      exact (h.passed htaken (duplicate_ne_integrity s r)).2
    · exact h.explains hy hkeyed

theorem Aftermath.eq_newKey (h : s.Aftermath r y again z looked outcome)
    {told : Option (List Value)} (hy : y = .ok told) : outcome = .ok (s.newKey r told) := by
  cases h with
  | kept hx =>
      cases hx.symm.trans hy
      rfl
  | failed hx _ => cases hx.symm.trans hy
  | unkeyed hx _ => cases hx.symm.trans hy
  | explained hx _ => cases hx.symm.trans hy

/-- What is asked after the transaction neither writes nor commits. -/
theorem Aftermath.reads (h : s.Aftermath r y again z looked outcome)
    (hagain : again = [] ∨ again = .connect :: Statement.asked ⟨s.table, .keyCheck r⟩ ++ [.close]) :
    (looked = [] ∨ looked = .connect :: Statement.asked ⟨s.table, .keyCheck r⟩ ++ [.close]) ∧
      looked.filter Event.isWrite = [] ∧ .commit ∉ looked := by
  have hlooked : looked = [] ∨
      looked = .connect :: Statement.asked ⟨s.table, .keyCheck r⟩ ++ [.close] := by
    cases h with
    | explained _ _ => exact hagain
    | _ => exact .inl rfl
  refine ⟨hlooked, ?_⟩
  rcases hlooked with rfl | rfl
  · exact ⟨rfl, List.not_mem_nil⟩
  · rw [Statement.asked]
    split
    · exact ⟨rfl, by simp⟩
    · exact ⟨rfl, by simp⟩

/-- What an insertion tells as a fault was one in its transaction. -/
theorem Aftermath.exists_error (h : s.Aftermath r y again z looked outcome) {f : Fault}
    (houtcome : outcome = .error f) : ∃ f, y = .error f := by
  cases h with
  | kept _ => cases houtcome
  | failed hx _ => exact ⟨_, hx⟩
  | unkeyed hx _ => exact ⟨_, hx⟩
  | explained hx _ => exact ⟨_, hx⟩

/-- A key that is found in the transaction is told, if it can be. -/
theorem insert_found {sent : Record} (hwritable : s.entity.readOnly = false)
    (hr : s.entity.coerce sent = .ok r) (hkeyed : isKeyed s.entity r = true)
    (hfinds : s.Finds session r) :
    ((s.insert sent).run session).2.result = .error (s.duplicate r) := by
  obtain ⟨es, x, hblock, htrial⟩ := trial_goes s (session.after [.start]) r
  obtain ⟨tried, y, hattempt, htransaction⟩ := Dialogue.transaction_goes hblock
  obtain ⟨-, rfl⟩ := taken_of_finds htrial htransaction hkeyed hfinds
  exact (goes_insert_error hwritable hr hattempt (duplicate_ne_integrity s r)).2

/-! ## Examples -/

/-- A database that finds no ticket of a code, refuses it, and then finds it. -/
def raceLost : Session := .fresh (.answering [
  .ok .nothing, .error (.database (.integrity "UNIQUE constraint failed: Ticket.Code")),
  .ok { Answer.nothing with rows := [[("Code", .str "a")]] }])

/-- The client is told that the key is taken. -/
example : ((ticketTable.insert numbered).run raceLost).2.result =
    .error (.duplicateKey "Ticket" [("Code", .str "a")]) := rfl

/-- Parcels, by their numbers. -/
def parcels : TableService :=
  let parcel : Entity := ⟨"Parcel", none, false, [⟨"Number", none, 0, 0, .numeric, true, true, false⟩]⟩
  ⟨parcel, Table.describing none parcel, []⟩

def parcel (number : Int) : Record := [("Number", .int number)]

/-- A database that finds a parcel. -/
def parcelFound : Session :=
  .fresh (.answering [.ok { Answer.nothing with rows := [[("Number", .int 1)]] }])

theorem duplicate_parcel {number : Int} (h : digitLimit < digitCount number.natAbs) :
    parcels.duplicate (parcel number) = .value (.integer .tooLongToWrite) := by
  have htext : integerText number = .error .tooLongToWrite := if_neg (Nat.not_le.mpr h)
  have hliteral : (Value.dict (parcels.entity.keyRecord (parcel number))).literal =
      .error .tooLongToWrite := by
    show Except.map _ (Value.entryLiterals [("Number", .int number)]) = _
    rw [Value.entryLiterals, Value.literal, htext]
    rfl
  rw [duplicate, Fault.ofDuplicateKey, hliteral]

end TableService

end Rowgate.Sql
