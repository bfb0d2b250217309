import Mathlib.Data.Finmap
import Rowgate.Proofs.Store.Rows
import Rowgate.Proofs.Value.Literal

/-!
# Ledgers

What a file amounts to for its clients: a finite map from keys to records. A ledger has a row for
each key that is taken. Its keys are told apart by what their values stand for, so the integer one
and the decimal one are one key, and a row says which number stands at a name, not how it is
written. `Ledger.serve` is the service of a file as it should be, without lists of records, without
looking a record up before it is written, and without bringing stored records to the form of their
fields again.

`Ledger.Honest` says in the words of a client what the replies mean; `Ledger.honest_serve` is that
the service keeps its word. That files are served in this way is shown in the next file. Of one fault
a file gives less than a ledger: a duplicate key that is too long for a message is refused, and nothing
is said here about how (`Ledger.Fulfils`).
-/

namespace Rowgate

/-! ## The service of a ledger -/

/-- A ledger: a finite map from keys to rows. -/
abbrev Ledger := Finmap fun _ : Place => Row

/-- What a write does. -/
inductive WriteKind
  | insert
  | update
  | delete
  deriving DecidableEq

/-- The name of an operation in a refusal. -/
def WriteKind.name : WriteKind → String
  | .insert => "insert"
  | .update => "update"
  | .delete => "delete"

/-- A write that a client asks for, with the record that it sends. -/
structure Write where
  kind : WriteKind
  record : Record

/-- What a client is told of a write that was no fault: the key of a new record, or findings. -/
inductive Reply
  | key (key : Record)
  | findings (findings : List Finding)

/-- The answer to a write that lacks key fields. -/
def WriteKind.lacking (kind : WriteKind) (missing : List Finding) : Except Fault Reply :=
  match kind with
  | .insert => .error (FileService.lacksKey missing)
  | _ => .ok (.findings missing)

namespace Ledger

/-- Serves a write that names a key. -/
def serveKeyed (e : Entity) (m : Ledger) (kind : WriteKind) (r : Record) :
    Except Fault Reply × Ledger :=
  match kind, m.lookup (e.place r) with
  | .insert, none => (.ok (.key (e.keyRecord r)), m.insert (e.place r) (Record.row (e.project r)))
  | .insert, some _ => (.error (.duplicateKey e.name (e.keyRecord r)), m)
  | .update, some row => (.ok (.findings []), m.insert (e.place r) (e.updated r row))
  | .delete, some _ => (.ok (.findings []), m.erase (e.place r))
  | _, none => (.ok (.findings [.notFound e]), m)

/-- Serves a write. -/
def serve (e : Entity) (readOnly : Bool) (m : Ledger) (w : Write) : Except Fault Reply × Ledger :=
  if readOnly then (.error (.readOnly e.name w.kind.name), m)
  else
    match e.requested w.record with
    | .error f => (.error f, m)
    | .ok r =>
      if (e.missingKeys r).isEmpty then serveKeyed e m w.kind r
      else (w.kind.lacking (e.missingFindings r), m)

/-- Serves writes one after another: the replies, and the ledger in the end. -/
def serveAll (e : Entity) (readOnly : Bool) (m : Ledger) :
    List Write → List (Except Fault Reply) × Ledger
  | [] => ([], m)
  | w :: ws =>
    let (reply, m) := serve e readOnly m w
    let (replies, m) := serveAll e readOnly m ws
    (reply :: replies, m)

end Ledger

/-! ## What the replies mean -/

/-- A record that a write sends is sound: it can be brought to the form of the fields, and has a
value for every key field. -/
def Entity.Keyed (e : Entity) (sent r : Record) : Prop :=
  e.coerce sent = .ok r ∧ e.missingKeys r = []

/-- What a client may conclude from the reply to a write about the ledgers before and after it. -/
structure Ledger.Honest (e : Entity) (readOnly : Bool) (m : Ledger) (w : Write)
    (reply : Except Fault Reply) (m' : Ledger) : Prop where
  /-- An insertion that returns a key has added the record, in the form of the fields and cut to
  them, under that key, which was free. -/
  inserted : ∀ key, w.kind = .insert → reply = .ok (.key key) →
    ∃ r, e.Keyed w.record r ∧ key = e.keyRecord r ∧ m.lookup (e.place r) = none ∧
      m' = m.insert (e.place r) (Record.row (e.project r))
  /-- A key is reported as a duplicate exactly if the record is sound and the key is taken. Nothing is
  promised about a key with an integer beyond the digit limit. -/
  duplicate : w.kind = .insert →
    (∀ r, e.Keyed w.record r → ¬ (Value.dict (e.keyRecord r)).HasLongInteger) → ∀ key,
    (reply = .error (.duplicateKey e.name key) ↔
      readOnly = false ∧ ∃ r, e.Keyed w.record r ∧ key = e.keyRecord r ∧
        (m.lookup (e.place r)).isSome)
  /-- An update without findings has changed the row of its key, and in it what the record has at
  names that may change. -/
  updated : w.kind = .update → reply = .ok (.findings []) →
    ∃ r row, e.Keyed w.record r ∧ m.lookup (e.place r) = some row ∧
      m' = m.insert (e.place r) (e.updated r row)
  /-- A deletion without findings has removed the row of its key. -/
  deleted : w.kind = .delete → reply = .ok (.findings []) →
    ∃ r, e.Keyed w.record r ∧ (m.lookup (e.place r)).isSome ∧ m' = m.erase (e.place r)
  /-- Nothing is found exactly if the record is sound and the key is free. -/
  notFound : w.kind ≠ .insert →
    (reply = .ok (.findings [.notFound e]) ↔
      readOnly = false ∧ ∃ r, e.Keyed w.record r ∧ m.lookup (e.place r) = none)
  /-- A read-only service refuses every write. -/
  refused : readOnly = true → reply = .error (.readOnly e.name w.kind.name)
  /-- A fault or a finding leaves the ledger as it was. -/
  unchanged : ((∃ f, reply = .error f) ∨ ∃ x xs, reply = .ok (.findings (x :: xs))) → m' = m

/-- Whether a reply is the one that is due. Where a duplicate key is to be reported that holds an
integer beyond the digit limit, any fault will do. -/
inductive Ledger.Fulfils (e : Entity) : (reply due : Except Fault Reply) → Prop
  | same (reply : Except Fault Reply) : Fulfils e reply reply
  | unnamed (fault : Fault) {key : Record} (hlong : (Value.dict key).HasLongInteger) :
    Fulfils e (.error fault) (.error (.duplicateKey e.name key))

namespace Entity

variable {e : Entity} {sent r s : Record}

theorem Keyed.unique (hr : e.Keyed sent r) (hs : e.Keyed sent s) : r = s :=
  Except.ok.inj (hr.1.symm.trans hs.1)

theorem requested_eq_ok : e.requested sent = .ok r ↔ e.coerce sent = .ok r := by
  rw [requested]
  cases e.coerce sent <;> simp [Except.mapError]

theorem isEmpty_missingFindings (e : Entity) (r : Record) :
    (e.missingFindings r).isEmpty = true ↔ e.missingKeys r = [] := by
  rw [missingFindings, List.isEmpty_iff, List.map_eq_nil_iff]

theorem notFound_ne_missing (e : Entity) (r : Record) : e.missingFindings r ≠ [.notFound e] := by
  intro h
  have hmem : Finding.notFound e ∈ e.missingFindings r := by rw [h]; exact List.mem_singleton_self _
  obtain ⟨name, _, hname⟩ := List.mem_map.mp hmem
  exact absurd (congrArg Finding.message hname)
    (by decide : "Key field missing" ≠ "Record not found")

end Entity

theorem Ledger.fulfils_ofDuplicateKey (e : Entity) (key : Record) :
    Fulfils e (.error (.ofDuplicateKey e.name key)) (.error (.duplicateKey e.name key)) := by
  rw [Fault.ofDuplicateKey]
  cases h : (Value.dict key).literal with
  | ok text => exact .same _
  | error fault => exact .unnamed _ (Value.hasLongInteger_of_literal _ h)

namespace Ledger

variable {e : Entity} {readOnly : Bool} {m : Ledger} {w : Write} {r : Record}

/-- A write that is refused, or whose record is not sound, leaves the ledger as it was. -/
theorem Honest.of_unsound {reply : Except Fault Reply}
    (h : readOnly = true ∨ ∀ r, ¬ e.Keyed w.record r) (hkey : ∀ key, reply ≠ .ok (.key key))
    (hduplicate : ∀ key, reply ≠ .error (.duplicateKey e.name key))
    (hdone : reply ≠ .ok (.findings [])) (hfound : reply ≠ .ok (.findings [.notFound e]))
    (hrefused : readOnly = true → reply = .error (.readOnly e.name w.kind.name)) :
    Honest e readOnly m w reply m where
  inserted key _ hreply := absurd hreply (hkey key)
  duplicate _ _ key := by
    refine iff_of_false (hduplicate key) ?_
    rintro ⟨hro, r, hr, _⟩
    rcases h with h | h
    · rw [h] at hro
      cases hro
    · exact h r hr
  updated _ hreply := absurd hreply hdone
  deleted _ hreply := absurd hreply hdone
  notFound _ := by
    refine iff_of_false hfound ?_
    rintro ⟨hro, r, hr, _⟩
    rcases h with h | h
    · rw [h] at hro
      cases hro
    · exact h r hr
  refused := hrefused
  unchanged _ := rfl

/-- What is told of an insertion of a sound record. -/
theorem honest_insert {sent : Record} (hr : e.Keyed sent r) :
    Honest e false m ⟨.insert, sent⟩ (serveKeyed e m .insert r).1 (serveKeyed e m .insert r).2 := by
  have hother : WriteKind.insert ≠ .update ∧ WriteKind.insert ≠ .delete := by decide
  cases hl : m.lookup (e.place r) with
  | none =>
      simp only [serveKeyed, hl]
      refine ⟨?_, ?_, fun h => absurd h hother.1, fun h => absurd h hother.2, fun h => absurd rfl h,
        fun h => (nomatch h), ?_⟩
      · intro key _ hreply
        cases hreply
        exact ⟨r, hr, rfl, hl, rfl⟩
      · refine fun _ _ _ => iff_of_false (fun h => nomatch h) ?_
        rintro ⟨_, s, hs, _, htaken⟩
        rw [hs.unique hr, hl] at htaken
        cases htaken
      · rintro (⟨_, h⟩ | ⟨_, _, h⟩) <;> cases h
  | some row =>
      simp only [serveKeyed, hl]
      refine ⟨fun _ _ h => (nomatch h), fun _ _ key => ?_, fun h => absurd h hother.1,
        fun h => absurd h hother.2, fun h => absurd rfl h, fun h => (nomatch h), fun _ => rfl⟩
      constructor
      · intro h
        cases h
        exact ⟨rfl, r, hr, rfl, by rw [hl]; rfl⟩
      · rintro ⟨_, s, hs, rfl, _⟩
        rw [hs.unique hr]

/-- What is told of an update or a deletion that names the key of a sound record. -/
theorem honest_change {kind : WriteKind} (hkind : kind ≠ .insert) {sent : Record}
    (hr : e.Keyed sent r) :
    Honest e false m ⟨kind, sent⟩ (serveKeyed e m kind r).1 (serveKeyed e m kind r).2 := by
  cases hl : m.lookup (e.place r) with
  | none =>
      have hserve : serveKeyed e m kind r = (.ok (.findings [.notFound e]), m) := by
        cases kind with
        | insert => exact absurd rfl hkind
        | update | delete => simp only [serveKeyed, hl]
      rw [hserve]
      refine ⟨fun _ h => absurd h hkind, fun h => absurd h hkind, fun _ h => (nomatch h),
        fun _ h => (nomatch h), fun _ => ?_, fun h => (nomatch h), fun _ => rfl⟩
      exact iff_of_true rfl ⟨rfl, r, hr, hl⟩
  | some row =>
      have hnot : ¬ ∃ s, e.Keyed sent s ∧ m.lookup (e.place s) = none := by
        rintro ⟨s, hs, hfree⟩
        rw [hs.unique hr, hl] at hfree
        cases hfree
      have hreply : (serveKeyed e m kind r).1 = .ok (.findings []) := by
        cases kind with
        | insert => exact absurd rfl hkind
        | update | delete => simp only [serveKeyed, hl]
      rw [hreply]
      refine ⟨fun _ h => absurd h hkind, fun h => absurd h hkind, fun h _ => ?_, fun h _ => ?_,
        fun _ => iff_of_false (fun h => (nomatch h)) fun h => hnot h.2, fun h => (nomatch h), ?_⟩
      · cases h
        exact ⟨r, row, hr, hl, by simp only [serveKeyed, hl]⟩
      · cases h
        exact ⟨r, hr, by rw [hl]; rfl, by simp only [serveKeyed, hl]⟩
      · rintro (⟨_, h⟩ | ⟨_, _, h⟩) <;> cases h

/-- The service of a ledger keeps its word. -/
theorem honest_serve (e : Entity) (readOnly : Bool) (m : Ledger) (w : Write) :
    Honest e readOnly m w (serve e readOnly m w).1 (serve e readOnly m w).2 := by
  cases readOnly with
  | true =>
      refine .of_unsound (Or.inl rfl) ?_ ?_ ?_ ?_ (fun _ => rfl) <;>
        first | (intro _ h; cases h) | (intro h; cases h)
  | false =>
      rw [serve, if_neg Bool.false_ne_true]
      cases hreq : e.requested w.record with
      | error f =>
          have hr : ∀ r, ¬ e.Keyed w.record r := fun r hr => by
            rw [Entity.requested_eq_ok.mpr hr.1] at hreq
            cases hreq
          have hf : ∀ key, f ≠ .duplicateKey e.name key := fun key he => by
            rw [Entity.requested, he] at hreq
            cases hc : e.coerce w.record <;> rw [hc] at hreq <;> cases hreq
          refine .of_unsound (Or.inr hr) ?_ ?_ ?_ ?_ ?_
          · exact fun _ h => nomatch h
          · exact fun key h => hf key (Except.error.inj h)
          · exact fun h => nomatch h
          · exact fun h => nomatch h
          · exact fun h => nomatch h
      | ok r =>
          by_cases hm : (e.missingKeys r).isEmpty = true
          · simp only [hm, if_true]
            have hr : e.Keyed w.record r :=
              ⟨Entity.requested_eq_ok.mp hreq, List.isEmpty_iff.mp hm⟩
            by_cases hkind : w.kind = .insert
            · obtain ⟨kind, sent⟩ := w
              cases hkind
              exact honest_insert hr
            · exact honest_change hkind hr
          · have hr : ∀ s, ¬ e.Keyed w.record s := fun s hs => by
              cases (Entity.requested_eq_ok.mpr hs.1).symm.trans hreq
              exact hm (List.isEmpty_iff.mpr hs.2)
            have hmissing : e.missingFindings r ≠ [] := fun h =>
              hm (List.isEmpty_iff.mpr (List.map_eq_nil_iff.mp h))
            simp only [hm]
            obtain ⟨kind, sent⟩ := w
            cases kind with
            | insert =>
                exact .of_unsound (Or.inr hr) (fun _ h => nomatch h) (fun _ h => nomatch h)
                  (fun h => nomatch h) (fun h => nomatch h) (fun h => nomatch h)
            | update | delete =>
                exact .of_unsound (Or.inr hr) (fun _ h => nomatch h) (fun _ h => nomatch h)
                  (fun h => hmissing (Reply.findings.inj (Except.ok.inj h)))
                  (fun h => e.notFound_ne_missing r (Reply.findings.inj (Except.ok.inj h)))
                  (fun h => nomatch h)

/-- A reply that fulfils an honest one is honest. -/
theorem Honest.of_fulfils {reply due : Except Fault Reply} {m' : Ledger}
    (h : Honest e readOnly m w due m') (hreply : Fulfils e reply due) :
    Honest e readOnly m w reply m' := by
  cases hreply with
  | same => exact h
  | @unnamed fault key hlong =>
      refine ⟨fun _ _ hr => (nomatch hr), fun hkind hshort => ?_, fun _ hr => (nomatch hr),
        fun _ hr => (nomatch hr), fun hkind => ?_, fun hro => ?_, fun _ => h.unchanged (.inl ⟨_, rfl⟩)⟩
      · obtain ⟨_, r, hr, rfl, _⟩ := (h.duplicate hkind hshort key).mp rfl
        exact absurd hlong (hshort r hr)
      · exact iff_of_false (fun hr => nomatch hr) fun hr => nomatch (h.notFound hkind).mpr hr
      · cases h.refused hro

end Ledger

end Rowgate
