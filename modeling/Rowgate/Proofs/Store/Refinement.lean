import Rowgate.Proofs.Outcome
import Rowgate.Proofs.Sql.Condition
import Rowgate.Proofs.Store.Ledger

/-!
# A file keeps a ledger

The service of a file brings a record to the form of the fields, looks its key up, merges, and hands
the record to the file, which brings it to that form again, computes the key again, and finds the
entry by comparing keys. It works on the file, so that a fault on the way would leave what was written
before it. The ledger of a file knows nothing of this, and still every write has the reply that is due
from the ledger, and leaves the file with the ledger that the reply promises (`serve_ledger`). What
carries the proof from one write to the next is `File.Sound`: field names are different, stored records
are in the form of the fields, and no two of them have the same place.
-/

namespace Rowgate

/-- A file that a ledger can be read from. -/
structure File.Sound (f : File) : Prop where
  names : (f.entity.fields.map (·.name)).Nodup
  formed : ∀ r ∈ f.records, f.entity.Formed r
  places : (f.records.map f.entity.place).Nodup

/-- The ledger of a file. -/
def File.ledger (f : File) : Ledger :=
  (f.records.map fun r => (⟨f.entity.place r, Record.row r⟩ : Sigma fun _ : Place => Row)).toFinmap

/-- The write of a record that has all of its key. -/
def FileService.performKeyed (kind : WriteKind) (r : Record) : Work File Reply :=
  match kind with
  | .insert => do return .key (← insertKeyed r)
  | .update => do return .findings (← updateKeyed r)
  | .delete => do return .findings (← deleteKeyed r)

def FileService.perform (s : FileService) (w : Write) : Work File Reply :=
  match w.kind with
  | .insert => do return .key (← s.insert w.record)
  | .update => do return .findings (← s.update w.record)
  | .delete => do return .findings (← s.delete w.record)

/-- Serves a write: the reply, and the file after it. -/
def FileService.serve (s : FileService) (f : File) (w : Write) : Except Fault Reply × File :=
  (s.perform w).outcome f

/-- Serves writes one after another: the replies, and the file in the end. -/
def FileService.serveAll (s : FileService) (f : File) :
    List Write → List (Except Fault Reply) × File
  | [] => ([], f)
  | w :: ws =>
    let (reply, f) := s.serve f w
    let (replies, f) := s.serveAll f ws
    (reply :: replies, f)

/-! ## Looking up a key -/

namespace File

variable {f g : File} {r c : Record}

theorem lookup_ledger (f : File) (p : Place) :
    f.ledger.lookup p = (f.records.find? fun r => f.entity.place r = p).map Record.row := by
  rw [ledger]
  induction f.records with
  | nil => rfl
  | cons r rs ih =>
      rw [List.map_cons, Finmap.toFinmap_cons, List.find?_cons]
      by_cases h : f.entity.place r = p
      · subst h
        rw [Finmap.lookup_insert]
        simp
      · rw [Finmap.lookup_insert_of_ne _ (Ne.symm h), ih]
        simp [h]

/-- A stored record has the key of a record exactly if they have one place. -/
theorem Sound.hasKey_iff (hf : f.Sound) (hc : f.entity.Formed c) (hr : r ∈ f.records) :
    f.hasKey (f.keyOf c) r = decide (f.entity.place r = f.entity.place c) := by
  rw [Bool.eq_iff_iff, decide_eq_true_eq, hasKey, keyOf]
  exact Entity.sameKey_iff_place (hf.formed r hr) hc

theorem Sound.find?_eq (hf : f.Sound) (hc : f.entity.Formed c) :
    f.find? (f.keyOf c) = f.records.find? fun r => f.entity.place r = f.entity.place c := by
  rw [find?]
  have hsame := fun r (hr : r ∈ f.records) => hf.hasKey_iff hc hr
  generalize f.records = rs at hsame ⊢
  induction rs with
  | nil => rfl
  | cons r rs ih =>
      rw [List.find?_cons, List.find?_cons, hsame r List.mem_cons_self,
        ih fun r hr => hsame r (List.mem_cons_of_mem _ hr)]

/-- What is found at a key is the row at its place. -/
theorem Sound.lookup_place (hf : f.Sound) (hc : f.entity.Formed c) :
    f.ledger.lookup (f.entity.place c) = (f.find? (f.keyOf c)).map Record.row := by
  rw [lookup_ledger, hf.find?_eq hc]

theorem Sound.contains_iff (hf : f.Sound) (hc : f.entity.Formed c) :
    f.contains (f.keyOf c) = (f.ledger.lookup (f.entity.place c)).isSome := by
  rw [contains, hf.lookup_place hc, Option.isSome_map]

/-- Records of a file with one place are the same. -/
theorem Sound.eq_of_place (hf : f.Sound) {s : Record} (hr : r ∈ f.records) (hs : s ∈ f.records)
    (h : f.entity.place s = f.entity.place r) : s = r :=
  List.inj_on_of_nodup_map hf.places hs hr h

/-- A record is found at every key that has its place. -/
theorem Sound.find?_of_mem (hf : f.Sound) (hc : f.entity.Formed c) (hr : r ∈ f.records)
    (h : f.entity.place r = f.entity.place c) : f.find? (f.keyOf c) = some r := by
  rw [hf.find?_eq hc]
  cases hfound : f.records.find? fun s => f.entity.place s = f.entity.place c with
  | none => exact absurd (decide_eq_true h) (List.find?_eq_none.mp hfound r hr)
  | some s =>
      have hplace : f.entity.place s = f.entity.place c := by simpa using List.find?_some hfound
      rw [hf.eq_of_place hr (List.mem_of_find?_eq_some hfound) (hplace.trans h.symm)]

theorem mem_of_find? {key : List Value} (h : f.find? key = some r) : r ∈ f.records :=
  List.mem_of_find?_eq_some h

theorem hasKey_of_find? {key : List Value} (h : f.find? key = some r) : f.hasKey key r = true :=
  List.find?_some (p := f.hasKey key) h

/-! ## What the operations of a file do to its ledger -/

/-- A file with some of the records is sound. -/
theorem Sound.sublist (hf : f.Sound) {rs : List Record} (h : rs.Sublist f.records) :
    (⟨f.entity, rs⟩ : File).Sound :=
  ⟨hf.names, fun r hr => hf.formed r (h.subset hr), hf.places.sublist (h.map f.entity.place)⟩

theorem Sound.append (hf : f.Sound) (hr : f.entity.Formed r)
    (hfree : f.ledger.lookup (f.entity.place r) = none) :
    (f.append r).Sound ∧
      (f.append r).ledger = f.ledger.insert (f.entity.place r) (Record.row r) := by
  rw [lookup_ledger, Option.map_eq_none_iff, List.find?_eq_none] at hfree
  have hne : ∀ s ∈ f.records, f.entity.place s ≠ f.entity.place r := fun s hs => by
    simpa using hfree s hs
  refine ⟨⟨hf.names, ?_, ?_⟩, Finmap.ext_lookup fun p => ?_⟩
  · intro s hs
    rcases List.mem_append.mp hs with hs | hs
    · exact hf.formed s hs
    · rw [List.mem_singleton.mp hs]
      exact hr
  · show ((f.records ++ [r]).map f.entity.place).Nodup
    rw [List.map_append, List.map_singleton, List.nodup_append]
    refine ⟨hf.places, List.nodup_singleton _, ?_⟩
    intro p hp q hq
    obtain ⟨s, hs, rfl⟩ := List.mem_map.mp hp
    rw [List.mem_singleton.mp hq]
    exact hne s hs
  · rw [lookup_ledger]
    show ((f.records ++ [r]).find? fun s => f.entity.place s = p).map Record.row = _
    rw [List.find?_append]
    by_cases hp : f.entity.place r = p
    · subst hp
      have hnone : (f.records.find? fun s => f.entity.place s = f.entity.place r) = none :=
        List.find?_eq_none.mpr fun s hs => by simpa using hne s hs
      rw [hnone, Finmap.lookup_insert]
      simp
    · rw [Finmap.lookup_insert_of_ne _ (Ne.symm hp), lookup_ledger]
      simp [hp]

/-- What is found among records after one has taken the place of another. -/
theorem find?_replaced (place : Record → Place) (r : Record) (rs : List Record) (p : Place) :
    ((rs.map fun s => if place s = place r then r else s).find? fun s => place s = p) =
      if place r = p then (rs.find? fun s => place s = p).map fun _ => r
      else rs.find? fun s => place s = p := by
  induction rs with
  | nil => simp
  | cons s rs ih =>
      rw [List.map_cons, List.find?_cons, List.find?_cons, ih]
      by_cases hs : place s = place r
      · rw [if_pos hs, hs]
        by_cases hp : place r = p <;> simp [hp]
      · rw [if_neg hs]
        by_cases hp : place r = p
        · subst hp
          simp [hs]
        · rw [if_neg hp, if_neg hp]

/-- A record takes the place of the one with its place. -/
theorem Sound.records_put (hf : f.Sound) (hr : f.entity.Formed r) :
    (f.put r).records =
      f.records.map fun s => if f.entity.place s = f.entity.place r then r else s := by
  refine List.map_congr_left fun s hs => ?_
  rw [hf.hasKey_iff hr hs]
  exact ite_congr (decide_eq_true_eq) (fun _ => rfl) fun _ => rfl

theorem Sound.put (hf : f.Sound) (hr : f.entity.Formed r)
    (htaken : (f.ledger.lookup (f.entity.place r)).isSome) :
    (f.put r).Sound ∧ (f.put r).ledger = f.ledger.insert (f.entity.place r) (Record.row r) := by
  have hput := hf.records_put hr
  have hplace : ∀ s, f.entity.place (if f.entity.place s = f.entity.place r then r else s) =
      f.entity.place s := fun s => by
    split
    · next h => exact h.symm
    · rfl
  refine ⟨⟨hf.names, ?_, ?_⟩, Finmap.ext_lookup fun p => ?_⟩
  · intro s hs
    rw [hput] at hs
    obtain ⟨t, ht, rfl⟩ := List.mem_map.mp hs
    split
    · exact hr
    · exact hf.formed t ht
  · show ((f.put r).records.map f.entity.place).Nodup
    rw [hput, List.map_map]
    exact (congrArg (fun g => (f.records.map g).Nodup) (funext hplace)).mpr hf.places
  · rw [lookup_ledger, hput]
    show (List.find? (fun s => f.entity.place s = p) _).map Record.row = _
    rw [find?_replaced]
    by_cases hp : f.entity.place r = p
    · subst hp
      rw [lookup_ledger, Option.isSome_map] at htaken
      obtain ⟨s, hs⟩ := Option.isSome_iff_exists.mp htaken
      rw [if_pos rfl, hs, Finmap.lookup_insert]
      rfl
    · rw [if_neg hp, Finmap.lookup_insert_of_ne _ (Ne.symm hp), lookup_ledger]

theorem Sound.erase (hf : f.Sound) (hc : f.entity.Formed c) :
    (f.erase (f.keyOf c)).Sound ∧
      (f.erase (f.keyOf c)).ledger = f.ledger.erase (f.entity.place c) := by
  have herase : (f.erase (f.keyOf c)).records =
      f.records.filter fun s => !decide (f.entity.place s = f.entity.place c) :=
    List.filter_congr fun s hs => congrArg not (hf.hasKey_iff hc hs)
  refine ⟨hf.sublist List.filter_sublist, Finmap.ext_lookup fun p => ?_⟩
  rw [lookup_ledger, herase]
  show (List.find? (fun s => f.entity.place s = p) _).map Record.row = _
  rw [List.find?_filter]
  by_cases hp : p = f.entity.place c
  · subst hp
    rw [Finmap.lookup_erase, Option.map_eq_none_iff, List.find?_eq_none]
    intro s _
    simp
  · rw [Finmap.lookup_erase_ne hp, lookup_ledger]
    congr 2
    funext s
    by_cases hs : f.entity.place s = p
    · subst hs
      simp [hp]
    · simp [hs]

/-! ## Handing a record to a file -/

/-- A record in the form of the fields reaches a file in a form of the same row and place. -/
theorem coerce_of_formed (h : f.entity.Formed r) :
    ∃ s, f.coerce r = .ok s ∧ f.entity.Formed s ∧ Record.row s = Record.row r ∧
      f.entity.place s = f.entity.place r := by
  obtain ⟨s, hs, hformed, hrow⟩ := Entity.coerce_of_formed h
  refine ⟨s, ?_, hformed, hrow, Entity.place_congr fun name _ => congrFun hrow name⟩
  rw [coerce, hs]
  rfl

theorem read_of_formed (hc : f.entity.Formed c) :
    f.read (f.keyOf c) = .ok (f.find? (f.keyOf c)) := by
  rw [File.read, keyOf, Entity.canBeKey_of_formed hc, if_pos rfl]

/-- A record that is written under a free key adds its row. -/
theorem Sound.write (hf : f.Sound) (hr : f.entity.Formed r)
    (hfree : f.ledger.lookup (f.entity.place r) = none) :
    ∃ g, (File.write r).outcome f = (.ok (), g) ∧ g.entity = f.entity ∧ g.Sound ∧
      g.ledger = f.ledger.insert (f.entity.place r) (Record.row r) := by
  obtain ⟨s, hs, hformed, hrow, hplace⟩ := coerce_of_formed hr
  rw [← hplace] at hfree
  obtain ⟨hsound, hledger⟩ := hf.append hformed hfree
  refine ⟨f.append s, ?_, rfl, hsound, by rw [hledger, hrow, hplace]⟩
  rw [outcome_write, hs]
  dsimp only
  rw [hf.contains_iff hformed, hfree]
  rfl

/-- A record that replaces the one with its key changes the row there. -/
theorem Sound.replace (hf : f.Sound) (hr : f.entity.Formed r)
    (htaken : (f.ledger.lookup (f.entity.place r)).isSome) :
    ∃ g, (File.replace r).outcome f = (.ok true, g) ∧ g.entity = f.entity ∧ g.Sound ∧
      g.ledger = f.ledger.insert (f.entity.place r) (Record.row r) := by
  obtain ⟨s, hs, hformed, hrow, hplace⟩ := coerce_of_formed hr
  rw [← hplace] at htaken
  obtain ⟨hsound, hledger⟩ := hf.put hformed htaken
  refine ⟨f.put s, ?_, rfl, hsound, by rw [hledger, hrow, hplace]⟩
  rw [outcome_replace, hs]
  dsimp only
  rw [hf.contains_iff hformed, if_pos htaken]

/-- A key that is deleted is gone; one that is free is not found. -/
theorem Sound.delete (hf : f.Sound) (hc : f.entity.Formed c) :
    (File.delete (f.keyOf c)).outcome f =
      if (f.ledger.lookup (f.entity.place c)).isSome then (.ok true, f.erase (f.keyOf c))
      else (.ok false, f) := by
  rw [outcome_delete]
  split
  · next h =>
      rw [lookup_ledger, List.isEmpty_iff.mp h]
      rfl
  · rw [keyOf, Entity.canBeKey_of_formed hc, if_pos rfl, ← keyOf, hf.contains_iff hc]

/-- A record in the form of the fields has a place in a sound file, taken or not. -/
theorem Sound.set (hf : f.Sound) (hc : f.entity.Formed c) :
    (if f.contains (f.keyOf c) then f.put c else f.append c).Sound := by
  rw [hf.contains_iff hc]
  cases hl : f.ledger.lookup (f.entity.place c) with
  | none => exact (hf.append hc hl).1
  | some row => exact (hf.put hc (by rw [hl]; rfl)).1

/-- Storing a record keeps a file sound. -/
theorem Sound.store (hf : f.Sound) (h : f.store r = .ok g) : g.Sound ∧ g.entity = f.entity := by
  obtain ⟨c, hc, hg⟩ := Outcome.bind_eq_ok.mp h
  cases hg
  refine ⟨hf.set (formed_of_coerce hc), ?_⟩
  split <;> rfl

theorem Sound.storeAll {rs : List Record} (hf : f.Sound) (h : f.storeAll rs = .ok g) :
    g.Sound ∧ g.entity = f.entity := by
  induction rs generalizing f with
  | nil =>
      cases h
      exact ⟨hf, rfl⟩
  | cons r rs ih =>
      rw [File.storeAll] at h
      cases hs : f.store r with
      | error fault => rw [hs] at h; cases h
      | ok f' =>
          rw [hs] at h
          obtain ⟨hf', he⟩ := hf.store hs
          obtain ⟨hg, he'⟩ := ih hf' h
          exact ⟨hg, he'.trans he⟩

/-- A file of records is sound if field names are different. -/
theorem sound_ofRecords {e : Entity} (hnames : (e.fields.map (·.name)).Nodup) {rs : List Record}
    (h : ofRecords e rs = .ok f) : f.Sound ∧ f.entity = e :=
  Sound.storeAll (f := empty e) ⟨hnames, fun _ h => (nomatch h), List.nodup_nil⟩ h

end File

/-! ## One write -/

section Serve

variable {s : FileService} {f : File} {sent r : Record}

/-- A request that has the form of the fields and all of its key is gone on with. -/
theorem FileService.outcome_of_keyed {α : Type} {operation : String}
    {lacking : List Finding → Except Fault α} {go : Record → Work File α} (h : s.readOnly = false)
    (hr : f.entity.Keyed sent r) :
    (s.keyedWrite operation lacking go sent).outcome f = (go r).outcome f := by
  rw [outcome_keyedWrite, h, if_neg Bool.false_ne_true, Entity.requested_eq_ok.mpr hr.1]
  exact if_pos ((f.entity.isEmpty_missingFindings r).mpr hr.2)

/-- A write of which the answer is passed on in another form. -/
theorem outcome_keyedWrite_bind_pure {α β : Type} (operation : String)
    (lacking : List Finding → Except Fault α) (go : Record → Work File α) (g : α → β) :
    (s.keyedWrite operation lacking go sent >>= fun a => pure (g a)).outcome f =
      (s.keyedWrite operation (fun missing => (lacking missing).map g)
        (fun r => go r >>= fun a => pure (g a)) sent).outcome f := by
  rw [Work.outcome_bind_pure, FileService.outcome_keyedWrite, FileService.outcome_keyedWrite]
  cases s.readOnly with
  | true => rfl
  | false =>
      rw [if_neg Bool.false_ne_true, if_neg Bool.false_ne_true]
      cases f.entity.requested sent with
      | error fault => rfl
      | ok r =>
          dsimp only
          split
          · exact (Work.outcome_bind_pure (go r) g f).symm
          · rfl

theorem serve_eq (s : FileService) (f : File) (w : Write) :
    s.serve f w =
      if s.readOnly then (.error (.readOnly f.entity.name w.kind.name), f)
      else
        match f.entity.requested w.record with
        | .error fault => (.error fault, f)
        | .ok r =>
          if (f.entity.missingFindings r).isEmpty then
            (FileService.performKeyed w.kind r).outcome f
          else (w.kind.lacking (f.entity.missingFindings r), f) := by
  obtain ⟨kind, sent⟩ := w
  cases kind with
  | insert | update | delete =>
      exact (outcome_keyedWrite_bind_pure _ _ _ _).trans (s.outcome_keyedWrite _ _ _ _ _)

/-- Whether the reply to a write is what is due from a ledger, and the file after it is sound and has
the ledger after it. -/
def File.Keeps (f : File) (out : Except Fault Reply × File)
    (expected : Except Fault Reply × Ledger) : Prop :=
  Ledger.Fulfils f.entity out.1 expected.1 ∧ out.2.Sound ∧ out.2.entity = f.entity ∧
    out.2.ledger = expected.2

theorem serve_insert (hf : f.Sound) (hr : f.entity.Formed r) :
    f.Keeps ((FileService.performKeyed .insert r).outcome f)
      (Ledger.serveKeyed f.entity f.ledger .insert r) := by
  have hread := File.read_of_formed hr
  have hlookup := hf.lookup_place hr
  rw [FileService.performKeyed, Work.outcome_bind_pure, FileService.outcome_insertKeyed, hread]
  cases hfind : f.find? (f.keyOf r) with
  | some stored =>
      rw [hfind] at hlookup
      simp only [Ledger.serveKeyed, hlookup, Option.map_some]
      exact ⟨Ledger.fulfils_ofDuplicateKey _ _, hf, rfl, rfl⟩
  | none =>
      rw [hfind] at hlookup
      rw [← f.entity.place_project] at hlookup
      obtain ⟨g, hg, hentity, hsound, hledger⟩ := hf.write hr.project hlookup
      rw [f.entity.place_project] at hledger hlookup
      dsimp only
      rw [hg]
      simp only [Ledger.serveKeyed, hlookup, Option.map_none]
      exact ⟨.same _, hsound, hentity, hledger⟩

/-- The row of a stored record after an update. -/
theorem row_merge_eq_updated (e : Entity) (stored r : Record) :
    Record.row (FileService.merge e.fields stored r) = e.updated r (Record.row stored) :=
  funext fun name => Entity.row_merge e.fields stored r name

theorem serve_update (hf : f.Sound) (hr : f.entity.Formed r) :
    f.Keeps ((FileService.performKeyed .update r).outcome f)
      (Ledger.serveKeyed f.entity f.ledger .update r) := by
  have hread := File.read_of_formed hr
  have hlookup := hf.lookup_place hr
  rw [FileService.performKeyed, Work.outcome_bind_pure, FileService.outcome_updateKeyed, hread]
  cases hfind : f.find? (f.keyOf r) with
  | none =>
      rw [hfind] at hlookup
      simp only [Ledger.serveKeyed, hlookup, Option.map_none]
      exact ⟨.same _, hf, rfl, rfl⟩
  | some stored =>
      have hmem := File.mem_of_find? hfind
      have hplace : f.entity.place stored = f.entity.place r := by
        rw [hf.find?_eq hr] at hfind
        simpa using List.find?_some hfind
      have hplace' : f.entity.place (FileService.merge f.entity.fields stored r) =
          f.entity.place r := by rw [Entity.place_merge hf.names, hplace]
      rw [hfind] at hlookup
      obtain ⟨g, hg, hentity, hsound, hledger⟩ :=
        hf.replace (hr.merge f.entity.fields (hf.formed stored hmem))
          (by rw [hplace', hlookup]; rfl)
      rw [hplace', row_merge_eq_updated] at hledger
      dsimp only
      rw [hg]
      simp only [Ledger.serveKeyed, hlookup, Option.map_some]
      exact ⟨.same _, hsound, hentity, hledger⟩

theorem serve_delete (hf : f.Sound) (hr : f.entity.Formed r) :
    f.Keeps ((FileService.performKeyed .delete r).outcome f)
      (Ledger.serveKeyed f.entity f.ledger .delete r) := by
  rw [FileService.performKeyed, Work.outcome_bind_pure, FileService.outcome_deleteKeyed, hf.delete hr]
  cases hlookup : f.ledger.lookup (f.entity.place r) with
  | none =>
      simp only [Ledger.serveKeyed, hlookup]
      exact ⟨.same _, hf, rfl, rfl⟩
  | some row =>
      obtain ⟨hsound, hledger⟩ := hf.erase hr
      simp only [Ledger.serveKeyed, hlookup]
      exact ⟨.same _, hsound, rfl, hledger⟩

/-- A write has the reply that is due from the ledger, and leaves the file with the ledger after it. -/
theorem serve_ledger (s : FileService) (hf : f.Sound) (w : Write) :
    f.Keeps (s.serve f w) (Ledger.serve f.entity s.readOnly f.ledger w) := by
  rw [Ledger.serve, serve_eq]
  cases s.readOnly with
  | true => exact ⟨.same _, hf, rfl, rfl⟩
  | false =>
      rw [if_neg Bool.false_ne_true, if_neg Bool.false_ne_true]
      cases hreq : f.entity.requested w.record with
      | error fault => exact ⟨.same _, hf, rfl, rfl⟩
      | ok r =>
          have hfindings :
              (f.entity.missingFindings r).isEmpty = (f.entity.missingKeys r).isEmpty :=
            List.isEmpty_map
          have hr : f.entity.Formed r :=
            Entity.formed_coerceEntries (Entity.requested_eq_ok.mp hreq)
          dsimp only
          rw [hfindings]
          cases (f.entity.missingKeys r).isEmpty with
          | false => exact ⟨.same _, hf, rfl, rfl⟩
          | true =>
              rw [if_pos rfl, if_pos rfl]
              obtain ⟨kind, sent⟩ := w
              cases kind with
              | insert => exact serve_insert hf hr
              | update => exact serve_update hf hr
              | delete => exact serve_delete hf hr

theorem snd_serve_insert (s : FileService) (f : File) (r : Record) :
    (s.serve f ⟨.insert, r⟩).2 = ((s.insert r).outcome f).2 :=
  congrArg Prod.snd (Work.outcome_bind_pure _ _ _)

theorem snd_serve_update (s : FileService) (f : File) (r : Record) :
    (s.serve f ⟨.update, r⟩).2 = ((s.update r).outcome f).2 :=
  congrArg Prod.snd (Work.outcome_bind_pure _ _ _)

theorem snd_serve_delete (s : FileService) (f : File) (r : Record) :
    (s.serve f ⟨.delete, r⟩).2 = ((s.delete r).outcome f).2 :=
  congrArg Prod.snd (Work.outcome_bind_pure _ _ _)

end Serve

/-! ## Runs -/

/-- Writes one after another have the replies that are due from the ledger, and leave the file with the
ledger after them. -/
theorem serveAll_ledger (s : FileService) {f : File} (hf : f.Sound) (ws : List Write) :
    (s.serveAll f ws).2.Sound ∧ (s.serveAll f ws).2.entity = f.entity ∧
      List.Forall₂ (Ledger.Fulfils f.entity) (s.serveAll f ws).1
        (Ledger.serveAll f.entity s.readOnly f.ledger ws).1 ∧
      (s.serveAll f ws).2.ledger = (Ledger.serveAll f.entity s.readOnly f.ledger ws).2 := by
  induction ws generalizing f with
  | nil => exact ⟨hf, rfl, .nil, rfl⟩
  | cons w ws ih =>
      obtain ⟨hreply, hsound, hentity, hledger⟩ := serve_ledger s hf w
      obtain ⟨hsound', hentity', hreplies, hledger'⟩ := ih hsound
      rw [hentity, hledger] at hreplies hledger'
      exact ⟨hsound', hentity'.trans hentity, .cons hreply hreplies, hledger'⟩

/-- A file of an entity keeps a ledger. Whatever writes it has served, the replies were those that are
due from the ledger that it started from, it has the ledger after them, with one record for each key,
and the next write gets a reply that a client can rely on. Keys are told apart as the file does it. -/
theorem keeps_ledger {e : Entity} (hnames : (e.fields.map (·.name)).Nodup) {records : List Record}
    {f : File} (hf : File.ofRecords e records = .ok f) (s : FileService) (ws : List Write) :
    List.Forall₂ (Ledger.Fulfils e) (s.serveAll f ws).1
        (Ledger.serveAll e s.readOnly f.ledger ws).1 ∧
      (s.serveAll f ws).2.ledger = (Ledger.serveAll e s.readOnly f.ledger ws).2 ∧
      ((s.serveAll f ws).2.records.map e.place).Nodup ∧
      (∀ w, Ledger.Honest e s.readOnly (s.serveAll f ws).2.ledger w
        (s.serve (s.serveAll f ws).2 w).1 (s.serve (s.serveAll f ws).2 w).2.ledger) ∧
      ∀ sent sent' r r', e.coerce sent = .ok r → e.coerce sent' = .ok r' →
        (e.place r = e.place r' ↔ Value.sameKey (e.keyOf r) (e.keyOf r') = true) := by
  obtain ⟨hsound, rfl⟩ := File.sound_ofRecords hnames hf
  obtain ⟨hsound', hentity, hreplies, hledger⟩ := serveAll_ledger s hsound ws
  refine ⟨hreplies, hledger, ?_, fun w => ?_, fun sent sent' r r' hr hr' => ?_⟩
  · rw [← hentity]
    exact hsound'.places
  · obtain ⟨hreply, _, _, hafter⟩ := serve_ledger s hsound' w
    rw [hentity] at hreply hafter
    rw [hafter]
    exact (Ledger.honest_serve _ _ _ _).of_fulfils hreply
  · exact (Entity.sameKey_iff_place (Entity.formed_coerceEntries hr)
      (Entity.formed_coerceEntries hr')).symm

/-! ## Examples -/

/-- Goods of which the price was sent as a truth value. -/
def oilFile : File := ⟨goods, [[("Name", .str "oil"), ("Price", .int 1)]]⟩

theorem keeps_ledger_goods :
    (goods.fields.map (·.name)).Nodup ∧
      File.ofRecords goods [[("Name", .str "oil"), ("Price", .bool true)]] = .ok oilFile ∧
      ∀ s ws,
        List.Forall₂ (Ledger.Fulfils goods) (FileService.serveAll s oilFile ws).1
            (Ledger.serveAll goods s.readOnly oilFile.ledger ws).1 ∧
          (FileService.serveAll s oilFile ws).2.ledger =
            (Ledger.serveAll goods s.readOnly oilFile.ledger ws).2 :=
  have hnames : (goods.fields.map (·.name)).Nodup := by decide
  have hf : File.ofRecords goods [[("Name", .str "oil"), ("Price", .bool true)]] = .ok oilFile :=
    rfl
  ⟨hnames, hf, fun s ws =>
    ⟨(keeps_ledger hnames hf s ws).1, (keeps_ledger hnames hf s ws).2.1⟩⟩

/-- Slots of a day, by the time at which they start. -/
def slots : Entity := ⟨"Slot", none, false, [⟨"T", none, 0, 0, .time, true, true, false⟩]⟩

/-- Midnight, where clocks are ahead by some microseconds. -/
def midnightAhead (ahead : Offset) : Value := .time ⟨Clock.midnight, some ahead⟩

/-- An offset of 1.5 seconds. -/
def laterOffset : Offset := ⟨1500000, by decide⟩

/-- An offset of 1.4 seconds. -/
def earlierOffset : Offset := ⟨1400000, by decide⟩

/-- Keys that are equal can be told apart: here two times of day are equal, since their offsets have
the same whole seconds, and both are inserted. -/
theorem equal_times_kept_apart :
    (midnightAhead laterOffset).equals (midnightAhead earlierOffset) = true ∧
      ∃ f, File.ofRecords slots [] = .ok f ∧
        (FileService.serveAll ⟨false, Operator.all, true⟩ f [
          ⟨.insert, [("T", midnightAhead laterOffset)]⟩,
          ⟨.insert, [("T", midnightAhead earlierOffset)]⟩]).1 = [
            .ok (.key [("T", midnightAhead laterOffset)]),
            .ok (.key [("T", midnightAhead earlierOffset)])] :=
  ⟨by decide +kernel, File.empty slots, rfl, rfl⟩

end Rowgate
