import Rowgate.Proofs.Work
import Rowgate.Store.Service

/-!
# What writes leave

Work on a file leaves a file behind whatever it comes to, so nothing keeps a write from changing the file
before it fails. None of them does: the file is changed last, after all that can go wrong
(`File.write_keepsIf` and its like), and a service only passes on what came of it. An insertion that gives
no key, and an update or a deletion that finds something or fails, leave the file as it was.

Whatever a write comes to, the records of the file after it are some of those before it, and at most one
record that was brought to the form of the fields. So what all records have, they have after the write, if
that one has it (`File.forall_write` and its like).
-/

namespace Rowgate

/-! ## Operations of a file -/

namespace File

theorem write_keepsIf (r : Record) : (File.write r).KeepsIf id (· ≠ .ok ()) := by
  intro f h
  change ((File.write r).outcome f).1 ≠ .ok () at h
  change ((File.write r).outcome f).2 = f
  rw [outcome_write] at h ⊢
  cases hc : f.coerce r with
  | error fault => rfl
  | ok c =>
      rw [hc] at h
      dsimp only at h ⊢
      split at h
      · next htaken => rw [if_pos htaken]
      · exact absurd rfl h

theorem replace_keepsIf (r : Record) : (File.replace r).KeepsIf id (· ≠ .ok true) := by
  intro f h
  change ((File.replace r).outcome f).1 ≠ .ok true at h
  change ((File.replace r).outcome f).2 = f
  rw [outcome_replace] at h ⊢
  cases hc : f.coerce r with
  | error fault => rfl
  | ok c =>
      rw [hc] at h
      dsimp only at h ⊢
      split at h
      · exact absurd rfl h
      · next hfree => rw [if_neg hfree]

theorem delete_keepsIf (key : List Value) : (File.delete key).KeepsIf id (· ≠ .ok true) := by
  intro f h
  change ((File.delete key).outcome f).1 ≠ .ok true at h
  change ((File.delete key).outcome f).2 = f
  rw [outcome_delete] at h ⊢
  split at h
  · next hempty => rw [if_pos hempty]
  · next hempty =>
      rw [if_neg hempty]
      split at h
      · next hkey =>
          rw [if_pos hkey]
          split at h
          · exact absurd rfl h
          · next hfree => rw [if_neg hfree]
      · next hkey => rw [if_neg hkey]

/-! ## The entity -/

theorem entity_write (r : Record) (f : File) : ((File.write r).outcome f).2.entity = f.entity := by
  rw [outcome_write]
  cases f.coerce r with
  | error fault => rfl
  | ok c =>
      dsimp only
      split <;> rfl

theorem entity_replace (r : Record) (f : File) :
    ((File.replace r).outcome f).2.entity = f.entity := by
  rw [outcome_replace]
  cases f.coerce r with
  | error fault => rfl
  | ok c =>
      dsimp only
      split <;> rfl

theorem entity_delete (key : List Value) (f : File) :
    ((File.delete key).outcome f).2.entity = f.entity := by
  rw [outcome_delete]
  split
  · rfl
  · split
    · split <;> rfl
    · rfl

/-! ## What all records have -/

section Records

variable {f : File} {r : Record} {R : Record → Prop}

theorem forall_append (hf : ∀ s ∈ f.records, R s) (hr : R r) : ∀ s ∈ (f.append r).records, R s := by
  intro s hs
  rcases List.mem_append.mp hs with hs | hs
  · exact hf s hs
  · rw [List.mem_singleton.mp hs]
    exact hr

theorem forall_put (hf : ∀ s ∈ f.records, R s) (hr : R r) : ∀ s ∈ (f.put r).records, R s := by
  intro s hs
  obtain ⟨old, hold, rfl⟩ := List.mem_map.mp hs
  split
  · exact hr
  · exact hf old hold

theorem forall_write (hf : ∀ s ∈ f.records, R s) (hr : ∀ c, f.coerce r = .ok c → R c) :
    ∀ s ∈ ((File.write r).outcome f).2.records, R s := by
  rw [outcome_write]
  cases hc : f.coerce r with
  | error fault => exact hf
  | ok c =>
      dsimp only
      split
      · exact hf
      · exact forall_append hf (hr c hc)

theorem forall_replace (hf : ∀ s ∈ f.records, R s) (hr : ∀ c, f.coerce r = .ok c → R c) :
    ∀ s ∈ ((File.replace r).outcome f).2.records, R s := by
  rw [outcome_replace]
  cases hc : f.coerce r with
  | error fault => exact hf
  | ok c =>
      dsimp only
      split
      · exact forall_put hf (hr c hc)
      · exact hf

theorem forall_delete (hf : ∀ s ∈ f.records, R s) (key : List Value) :
    ∀ s ∈ ((File.delete key).outcome f).2.records, R s := by
  rw [outcome_delete]
  split
  · exact hf
  · split
    · split
      · exact fun s hs => hf s (List.mem_filter.mp hs).1
      · exact hf
    · exact hf

end Records

end File

/-! ## Operations of a service -/

namespace FileService

variable {α : Type}

theorem keyedWrite_keepsIf {s : FileService} {operation : String}
    {lacking : List Finding → Except Fault α} {go : Record → Work File α}
    {refused : Except Fault α → Prop} (h : ∀ r, (go r).KeepsIf id refused) (sent : Record) :
    (s.keyedWrite operation lacking go sent).KeepsIf id refused := by
  refine Work.keeps_state.bind_keepsIf fun f => (Work.keeps_ofTraced _).bind_keepsIf fun _ => ?_
  refine (Work.keeps_ofResult _).bind_keepsIf fun r => ?_
  dsimp only
  split
  · exact h r
  · exact (Work.keeps_ofResult _).keepsIf

theorem insertKeyed_keepsIf (r : Record) :
    (insertKeyed r).KeepsIf id fun outcome => ∀ key, outcome ≠ .ok key := by
  refine Work.keeps_state.bind_keepsIf fun f => (Work.keeps_ofResult _).bind_keepsIf fun found => ?_
  cases found with
  | some stored => exact (Work.keeps_fail _).keepsIf
  | none =>
      refine (File.write_keepsIf _).bind_keeps (fun _ => Work.keeps_pure _) (fun _ _ => nofun) ?_
      exact fun _ _ h => absurd rfl (h _)

/-- Where a write passes on whether it has found its record, it has findings unless it has found it. -/
theorem findingsOf_keepsIf {e : Entity} {work : Work File Bool}
    (h : work.KeepsIf id (· ≠ .ok true)) :
    (work >>= fun found => pure (e.findingsOf found)).KeepsIf id (· ≠ .ok []) := by
  refine h.bind_keeps (fun _ => Work.keeps_pure _) (fun _ _ => nofun) fun found _ hfindings hfound => ?_
  cases hfound
  exact hfindings rfl

theorem updateKeyed_keepsIf (r : Record) : (updateKeyed r).KeepsIf id (· ≠ .ok []) := by
  refine Work.keeps_state.bind_keepsIf fun f => (Work.keeps_ofResult _).bind_keepsIf fun found => ?_
  cases found with
  | none => exact (Work.keeps_pure _).keepsIf
  | some stored => exact findingsOf_keepsIf (File.replace_keepsIf _)

theorem deleteKeyed_keepsIf (r : Record) : (deleteKeyed r).KeepsIf id (· ≠ .ok []) :=
  Work.keeps_state.bind_keepsIf fun _ => findingsOf_keepsIf (File.delete_keepsIf _)

theorem insert_keepsIf (s : FileService) (r : Record) :
    (s.insert r).KeepsIf id fun outcome => ∀ key, outcome ≠ .ok key :=
  keyedWrite_keepsIf insertKeyed_keepsIf r

theorem update_keepsIf (s : FileService) (r : Record) : (s.update r).KeepsIf id (· ≠ .ok []) :=
  keyedWrite_keepsIf updateKeyed_keepsIf r

theorem delete_keepsIf (s : FileService) (r : Record) : (s.delete r).KeepsIf id (· ≠ .ok []) :=
  keyedWrite_keepsIf deleteKeyed_keepsIf r

end FileService

end Rowgate
