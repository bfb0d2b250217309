import Rowgate.Proofs.Outcome
import Rowgate.Proofs.Request.Fields
import Rowgate.Proofs.Store.Refinement
import Rowgate.Proofs.Store.Unchanged
import Rowgate.Proofs.Value.Portable

/-!
# Stored records have all fields

A record that is inserted is cut to the fields of the metadata first, an update only sets what the
record has already, and bringing a record to the form of the fields keeps its names. So every record
that comes into a file by a write has the fields of the metadata in their order, and showing it cuts
nothing from it (`Complete.project_eq`). None of its key fields is null, for a write that lacks one of
them is told so, and updates leave key fields alone (`File.Keyed`).
-/

namespace Rowgate

namespace Record

theorem names_set {r : Record} {name : String} (h : name ∈ names r) (v : Value) :
    names (set r name v) = names r := by
  induction r with
  | nil => cases h
  | cons first rest ih =>
      obtain ⟨k, w⟩ := first
      rw [set]
      split
      · rfl
      · next hne =>
          have hrest : name ∈ names rest := (List.mem_cons.mp h).resolve_left fun heq => hne heq.symm
          exact congrArg (k :: ·) (ih hrest)

/-- A record with different names is told by its names and by what it has at each. -/
theorem map_field_names {r : Record} (h : (names r).Nodup) :
    (names r).map (fun name => (name, field r name)) = r := by
  induction r with
  | nil => rfl
  | cons first rest ih =>
      obtain ⟨k, v⟩ := first
      obtain ⟨hk, hrest⟩ := List.nodup_cons.mp h
      have htail : (names rest).map (fun name => (name, field ((k, v) :: rest) name)) = rest := by
        refine (List.map_congr_left fun name hname => ?_).trans (ih hrest)
        have hne : k ≠ name := fun heq => hk (heq ▸ hname)
        rw [field, field, field?, if_neg hne]
      have hhead : field ((k, v) :: rest) k = v := by rw [field, field?, if_pos rfl]; rfl
      show (k, field ((k, v) :: rest) k) :: List.map _ (names rest) = _
      rw [hhead, htail]

end Record

namespace Entity

variable {e : Entity} {r s : Record}

/-- Whether a record has the fields of the metadata, in their order. -/
def Complete (e : Entity) (r : Record) : Prop := Record.names r = e.fields.map (·.name)

theorem Complete.project_eq (hnames : (e.fields.map (·.name)).Nodup) (h : e.Complete r) :
    e.project r = r := by
  have hentries : e.fields.map (fun f => (f.name, Record.field r f.name)) =
      (Record.names r).map fun name => (name, Record.field r name) := by
    rw [h, List.map_map]
    rfl
  have hnodup : (Record.names r).Nodup := h ▸ hnames
  rw [project, hentries, Record.map_field_names hnodup, Record.ofEntries_of_nodup hnodup]

/-- Where field names are different, what is shown of a record is one entry for each field. -/
theorem project_eq_map (hnames : (e.fields.map (·.name)).Nodup) (r : Record) :
    e.project r = e.fields.map fun f => (f.name, Record.field r f.name) := by
  have hentries : Record.names (e.fields.map fun f => (f.name, Record.field r f.name)) =
      e.fields.map (·.name) := by
    rw [Record.names, List.map_map]
    rfl
  rw [project, Record.ofEntries_of_nodup (hentries ▸ hnames)]

theorem complete_project (hnames : (e.fields.map (·.name)).Nodup) (r : Record) :
    e.Complete (e.project r) := by
  rw [Complete, project_eq_map hnames, Record.names, List.map_map]
  rfl

theorem Complete.merge {fields : List Field} (hfields : ∀ f ∈ fields, f ∈ e.fields)
    (h : e.Complete s) (r : Record) : e.Complete (FileService.merge fields s r) := by
  induction fields generalizing s with
  | nil => exact h
  | cons f fields ih =>
      obtain ⟨hf, hrest⟩ := List.forall_mem_cons.mp hfields
      rw [FileService.merge]
      cases Record.field? r f.name with
      | none => exact ih hrest h
      | some v =>
          dsimp only
          split
          · exact ih hrest h
          · have hmem : f.name ∈ Record.names s := h ▸ List.mem_map_of_mem hf
            exact ih hrest ((Record.names_set hmem v).trans h)

theorem names_coerceEntries {fields : List Field} (h : coerceEntries fields r = .ok s) :
    Record.names s = Record.names r := by
  induction r generalizing s with
  | nil =>
      cases h
      rfl
  | cons first rest ih =>
      obtain ⟨name, v⟩ := first
      obtain ⟨w, rest', -, hrest, rfl⟩ := coerceEntries_cons h
      exact congrArg (name :: ·) (ih hrest)

end Entity

/-! ## Key fields that are not null -/

theorem Field.isNull_coerce {f : Field} {v w : Value} (h : f.coerce v = .ok w) : w.isNull = v.isNull := by
  cases hv : v.isNull with
  | true =>
      rw [coerce, if_pos hv] at h
      cases h
      rfl
  | false =>
      rw [coerce_of_not_null hv] at h
      exact (coerceSome_fits h).not_null

namespace Entity

variable {e : Entity} {r s : Record}

theorem missingKeys_congr (h : ∀ name ∈ e.keyNames,
    (Record.field r name).isNull = (Record.field s name).isNull) : e.missingKeys r = e.missingKeys s :=
  List.filter_congr h

theorem missingKeys_coerce (hnames : (e.fields.map (·.name)).Nodup) (hs : e.coerce r = .ok s) :
    e.missingKeys s = e.missingKeys r := by
  refine missingKeys_congr fun name hname => ?_
  obtain ⟨f, hf, rfl⟩ := List.mem_map.mp hname
  have hmem := List.mem_of_mem_filter hf
  rw [Record.field, Record.field]
  rcases field?_coerceEntries hs f.name with ⟨hr, hs'⟩ | ⟨v, w, hv, hw, hcoerce⟩
  · rw [hr, hs']
  · rw [fieldNamed?_of_mem hnames hmem] at hcoerce
    rw [hv, hw]
    exact Field.isNull_coerce hcoerce

theorem missingKeys_project (e : Entity) (r : Record) :
    e.missingKeys (e.project r) = e.missingKeys r := by
  refine missingKeys_congr fun name hname => ?_
  obtain ⟨f, hf, rfl⟩ := List.mem_map.mp hname
  rw [Record.field, field?_project, if_pos (List.mem_map_of_mem (List.mem_of_mem_filter hf)),
    Option.getD_some]

/-- An update changes nothing at a key field. -/
theorem missingKeys_merge (hnames : (e.fields.map (·.name)).Nodup) (stored r : Record) :
    e.missingKeys (FileService.merge e.fields stored r) = e.missingKeys stored := by
  refine missingKeys_congr fun name hname => ?_
  have hfalse := changes_eq_false hnames hname
  rw [changes] at hfalse
  rw [Record.field, field?_merge, hfalse, Bool.false_and, if_neg Bool.false_ne_true, Record.field]

theorem not_null_of_missingKeys (h : e.missingKeys r = []) {name : String} (hname : name ∈ e.keyNames) :
    (Record.field r name).isNull = false := by
  rw [← Bool.not_eq_true]
  exact List.filter_eq_nil_iff.mp h name hname

end Entity

/-! ## Depth -/

theorem Field.Holds.depth_eq {f : Field} {v : Value} (h : f.Holds v) : v.depth = 1 := by
  rcases h with rfl | h
  · rfl
  · generalize f.kind = k at h
    cases h <;> rfl

/-- A page of records is not nested too deeply to be sent. -/
theorem Page.depth_le {records : List Record} (h : ∀ r ∈ records, ∀ entry ∈ r, entry.2.depth = 1) :
    (Value.dict (Page.toRecord ⟨records, 0⟩)).depth ≤ Json.depthLimit := by
  have hitems : Value.itemsDepth (records.map .dict) ≤ 2 := by
    refine Value.itemsDepth_le_iff.mpr fun v hv => ?_
    obtain ⟨r, hr, rfl⟩ := List.mem_map.mp hv
    rw [Value.depth]
    exact Nat.succ_le_succ (Value.entriesDepth_le_iff.mpr fun entry hentry => (h r hr entry hentry).le)
  simp only [Page.toRecord, Value.depth, Value.entriesDepth, Json.depthLimit]
  omega

/-! ## Files -/

namespace File

variable {f : File} {r c : Record}

/-- Whether every record of a file has the fields of the metadata. -/
def Complete (f : File) : Prop := ∀ r ∈ f.records, f.entity.Complete r

/-- Whether no record of a file lacks a key field. -/
def Keyed (f : File) : Prop := ∀ r ∈ f.records, f.entity.missingKeys r = []

theorem complete_coerce (hr : f.entity.Complete r) (h : f.coerce r = .ok c) :
    f.entity.Complete c := by
  rw [coerce] at h
  cases hc : f.entity.coerce r with
  | error fault =>
      rw [hc] at h
      cases h
  | ok s =>
      rw [hc] at h
      cases h
      exact (Entity.names_coerceEntries hc).trans hr

end File

/-! ## Writes -/

namespace FileService

variable {f : File} {R : Record → Prop}

/-- What all records have, they have after a write of a record with all of its key, if the record does
that is cut to the fields and the one that is changed. -/
theorem forall_performKeyed (hf : ∀ s ∈ f.records, R s) (kind : WriteKind) {r : Record}
    (hinsert : ∀ c, f.coerce (f.entity.project r) = .ok c → R c)
    (hupdate : ∀ stored, R stored → ∀ c, f.coerce (merge f.entity.fields stored r) = .ok c → R c) :
    ∀ s ∈ ((performKeyed kind r).outcome f).2.records, R s := by
  cases kind with
  | insert =>
      rw [performKeyed, Work.outcome_bind_pure, outcome_insertKeyed]
      cases f.read (f.keyOf r) with
      | error fault => exact hf
      | ok found =>
          cases found with
          | some stored => exact hf
          | none => exact File.forall_write hf hinsert
  | update =>
      rw [performKeyed, Work.outcome_bind_pure, outcome_updateKeyed]
      cases hread : f.read (f.keyOf r) with
      | error fault => exact hf
      | ok found =>
          cases found with
          | none => exact hf
          | some stored =>
              have hstored : R stored := by
                rw [File.read] at hread
                split at hread
                · exact hf stored (File.mem_of_find? (Except.ok.inj hread))
                · cases hread
              exact File.forall_replace hf (hupdate stored hstored)
  | delete =>
      rw [performKeyed, Work.outcome_bind_pure, outcome_deleteKeyed]
      exact File.forall_delete hf _

/-- The same of any write, of which only the record matters that has the form of the fields and all of
the key. -/
theorem forall_serve (hf : ∀ s ∈ f.records, R s) (s : FileService) (w : Write)
    (hinsert : ∀ r, f.entity.Keyed w.record r → ∀ c, f.coerce (f.entity.project r) = .ok c → R c)
    (hupdate : ∀ r, f.entity.Keyed w.record r → ∀ stored, R stored →
      ∀ c, f.coerce (merge f.entity.fields stored r) = .ok c → R c) :
    ∀ s' ∈ (s.serve f w).2.records, R s' := by
  rw [serve_eq]
  split
  · exact hf
  · cases hrequested : f.entity.requested w.record with
    | error fault => exact hf
    | ok r =>
        dsimp only
        split
        · next hmissing =>
            have hr : f.entity.Keyed w.record r :=
              ⟨Entity.requested_eq_ok.mp hrequested, (f.entity.isEmpty_missingFindings r).mp hmissing⟩
            exact forall_performKeyed hf w.kind (hinsert r hr) (hupdate r hr)
        · exact hf

end FileService

/-- A file as it is after any writes, if it was empty before them. -/
structure File.Kept (e : Entity) (f : File) : Prop where
  entity : f.entity = e
  sound : f.Sound
  complete : f.Complete
  keyed : f.Keyed

namespace File.Kept

variable {e : Entity} {f : File}

theorem empty (hnames : (e.fields.map (·.name)).Nodup) : Kept e (File.empty e) :=
  ⟨rfl, ⟨hnames, fun _ h => (nomatch h), List.nodup_nil⟩, fun _ h => (nomatch h),
    fun _ h => (nomatch h)⟩

theorem serve (hf : Kept e f) (s : FileService) (w : Write) : Kept e (s.serve f w).2 := by
  obtain ⟨-, hsound, hentity, -⟩ := serve_ledger s hf.sound w
  have hnames := hf.sound.names
  refine ⟨hentity.trans hf.entity, hsound, ?_, ?_⟩
  · rw [File.Complete, hentity]
    refine FileService.forall_serve hf.complete s w (fun r _ c hc => ?_) fun r _ stored hstored c hc => ?_
    · exact complete_coerce (Entity.complete_project hnames r) hc
    · exact complete_coerce (hstored.merge (fun _ => id) r) hc
  · rw [File.Keyed, hentity]
    refine FileService.forall_serve hf.keyed s w (fun r hr c hc => ?_) fun r _ stored hstored c hc => ?_
    · rw [Entity.missingKeys_coerce hnames (Outcome.ok_of_mapError hc), Entity.missingKeys_project]
      exact hr.2
    · rw [Entity.missingKeys_coerce hnames (Outcome.ok_of_mapError hc),
        Entity.missingKeys_merge hnames]
      exact hstored

end File.Kept

end Rowgate
