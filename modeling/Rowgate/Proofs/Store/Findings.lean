import Rowgate.Proofs.Outcome
import Rowgate.Proofs.Store.Same

/-!
# What an update or a deletion finds

An update and a deletion are answered with findings, and these depend on nothing of a store but on
which keys are taken in it. `Entity.findings` is this answer. A file gives it (`findings_update`,
`findings_delete`), and where an update finds nothing wrong it changes one record, in its place, by the
values that it may set (`exists_of_update`).
-/

namespace Rowgate

/-- What an update or a deletion finds, where it is known which records have keys that are taken. -/
def Entity.findings (e : Entity) (taken : Record → Bool) (sent : Record) :
    Except Fault (List Finding) := do
  let r ← e.requested sent
  .ok (if (e.missingFindings r).isEmpty then if taken r then [] else [.notFound e]
    else e.missingFindings r)

namespace Entity

variable {e : Entity} {taken : Record → Bool} {sent r : Record}

/-- Nothing is found wrong exactly with a record that gives all of a key that is taken. -/
theorem findings_eq_nil :
    e.findings taken sent = .ok [] ↔ ∃ r, e.Keyed sent r ∧ taken r = true := by
  constructor
  · intro h
    obtain ⟨r, hr, h⟩ := Outcome.bind_eq_ok.mp h
    rw [Except.ok.injEq] at h
    split at h
    · next hm =>
        refine ⟨r, ⟨requested_eq_ok.mp hr, (e.isEmpty_missingFindings r).mp hm⟩, ?_⟩
        split at h
        · assumption
        · cases h
    · next hm => exact absurd (List.isEmpty_iff.mpr h) hm
  · rintro ⟨r, ⟨hr, hm⟩, htaken⟩
    refine Outcome.bind_eq_ok.mpr ⟨r, requested_eq_ok.mpr hr, ?_⟩
    rw [if_pos ((e.isEmpty_missingFindings r).mpr hm), if_pos htaken]

/-- A fault of an update or a deletion is that of a value that has no form of its field. -/
theorem exists_of_findings_error {fault : Fault} (h : e.findings taken sent = .error fault) :
    ∃ v : ValueFault, fault = .ofMessages .request wholeRequest [v.message] := by
  rw [findings, requested] at h
  cases hr : e.coerce sent with
  | ok r =>
      rw [hr] at h
      cases h
  | error v =>
      rw [hr] at h
      cases h
      exact ⟨v, rfl⟩

end Entity

namespace FileService

variable {s : FileService} {f g : File} {sent r old : Record}

/-! ## Files -/

/-- A write that finds out whether a key is taken, once it has all of it, finds what there is to find. -/
theorem findings_keyedWrite {operation : String} {go : Record → Work File (List Finding)}
    (hs : s.readOnly = false)
    (h : ∀ r, f.entity.Keyed sent r → ((go r).outcome f).1 =
      .ok (f.entity.findingsOf (f.contains (f.keyOf r)))) :
    ((s.keyedWrite operation .ok go sent).outcome f).1 =
      f.entity.findings (fun r => f.contains (f.keyOf r)) sent := by
  rw [outcome_keyedWrite, hs, if_neg Bool.false_ne_true, Entity.findings]
  cases hreq : f.entity.requested sent with
  | error fault => rfl
  | ok r =>
      dsimp only [bind, Except.bind]
      split
      · next hm =>
          exact h r ⟨Entity.requested_eq_ok.mp hreq, (f.entity.isEmpty_missingFindings r).mp hm⟩
      · rfl

/-- An update of a key that is taken puts the stored record back with the new values. -/
theorem updateKeyed_of_found (hf : f.Sound) (hr : f.entity.Formed r)
    (hold : f.find? (f.keyOf r) = some old) :
    ∃ new, f.entity.Formed new ∧ f.entity.Same new (merge f.entity.fields old r) ∧
      f.entity.place new = f.entity.place r ∧ (updateKeyed r).outcome f = (.ok [], f.put new) := by
  have hmerged : f.entity.Formed (merge f.entity.fields old r) :=
    hr.merge f.entity.fields (hf.formed old (File.mem_of_find? hold))
  -- the merged record passes through the form of the fields once more, and keeps its place
  obtain ⟨new, hcoerce, hnew, hrow⟩ := Entity.coerce_of_formed hmerged
  have hplace : f.entity.place new = f.entity.place r := by
    rw [hf.find?_eq hr] at hold
    rw [Entity.place_congr fun name _ => congrFun hrow name, Entity.place_merge hf.names]
    simpa using List.find?_some hold
  have htaken : f.contains (f.keyOf new) = true := by
    rw [File.contains, hf.find?_eq hnew, hplace, ← hf.find?_eq hr, hold]
    rfl
  have hreplace : (File.replace (merge f.entity.fields old r)).outcome f = (.ok true, f.put new) := by
    rw [File.outcome_replace, File.coerce, hcoerce]
    exact if_pos htaken
  refine ⟨new, hnew, Entity.same_coerce hf.names hmerged hcoerce, hplace, ?_⟩
  rw [outcome_updateKeyed, File.read_of_formed hr, hold]
  dsimp only
  rw [hreplace]
  rfl

theorem findings_updateKeyed (hf : f.Sound) (hr : f.entity.Formed r) :
    ((updateKeyed r).outcome f).1 = .ok (f.entity.findingsOf (f.contains (f.keyOf r))) := by
  rw [File.contains]
  cases hold : f.find? (f.keyOf r) with
  | some old =>
      obtain ⟨new, -, -, -, hupdate⟩ := updateKeyed_of_found hf hr hold
      rw [hupdate]
      rfl
  | none =>
      rw [outcome_updateKeyed, File.read_of_formed hr, hold]
      rfl

theorem findings_deleteKeyed (hf : f.Sound) (hr : f.entity.Formed r) :
    ((deleteKeyed r).outcome f).1 = .ok (f.entity.findingsOf (f.contains (f.keyOf r))) := by
  rw [outcome_deleteKeyed, hf.delete hr, hf.contains_iff hr]
  cases (f.ledger.lookup (f.entity.place r)).isSome <;> rfl

theorem findings_update (h : s.readOnly = false) (hf : f.Sound) (sent : Record) :
    ((s.update sent).outcome f).1 = f.entity.findings (fun r => f.contains (f.keyOf r)) sent :=
  findings_keyedWrite h fun _ hr => findings_updateKeyed hf (Entity.formed_coerceEntries hr.1)

theorem findings_delete (h : s.readOnly = false) (hf : f.Sound) (sent : Record) :
    ((s.delete sent).outcome f).1 = f.entity.findings (fun r => f.contains (f.keyOf r)) sent :=
  findings_keyedWrite h fun _ hr => findings_deleteKeyed hf (Entity.formed_coerceEntries hr.1)

/-- An update that finds nothing wrong has changed one record in its place, the one with the key that
was sent. -/
theorem exists_of_update (hf : f.Sound) (h : (s.update sent).outcome f = (.ok [], g)) :
    ∃ r old new before after, f.entity.Keyed sent r ∧ f.find? (f.keyOf r) = some old ∧
      f.records = before ++ old :: after ∧ g = { f with records := before ++ new :: after } ∧
      f.entity.Same new (merge f.entity.fields old r) ∧
      ∀ other ∈ before ++ after, f.entity.place other ≠ f.entity.place r := by
  have hwritable : s.readOnly = false := by
    cases hs : s.readOnly with
    | false => rfl
    | true =>
        rw [update, outcome_keyedWrite, hs] at h
        cases h
  have hfindings := findings_update hwritable hf sent
  rw [h] at hfindings
  obtain ⟨r, hr, htaken⟩ := Entity.findings_eq_nil.mp hfindings.symm
  obtain ⟨old, hold⟩ := Option.isSome_iff_exists.mp htaken
  have hformed : f.entity.Formed r := Entity.formed_coerceEntries hr.1
  obtain ⟨new, hnew, hsame, hplace, hupdate⟩ := updateKeyed_of_found hf hformed hold
  have hfound : f.find? (f.keyOf new) = some old := by
    rw [hf.find?_eq hnew, hplace, ← hf.find?_eq hformed, hold]
  obtain ⟨before, after, hrecords, hput, hothers⟩ := hf.exists_put hnew hfound
  rw [hplace] at hothers
  refine ⟨r, old, new, before, after, hr, hold, hrecords, ?_, hsame, hothers⟩
  rw [update, outcome_of_keyed hwritable hr, hupdate, Prod.mk.injEq] at h
  rw [← h.2, hput]

end FileService

end Rowgate
