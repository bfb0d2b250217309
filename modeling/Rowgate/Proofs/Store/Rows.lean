import Mathlib.Data.List.Nodup
import Rowgate.Proofs.Entity.Form
import Rowgate.Proofs.Outcome
import Rowgate.Store.Service

/-!
# Rows

What a record says, apart from how it is written: a row, which has a number or another value at each
name, and a place, which is its key as the data that the key stands for. Both are what stays when a
record in the form of the fields is brought to that form once more, as happens on the way into a
file; so the places of such records coincide exactly if a file takes their keys for the same.
-/

namespace Rowgate

/-- What stands at a name of a record: a number, however it is written, or another value. -/
inductive Cell
  | number (q : ℚ)
  | other (v : Value)

/-- What a value is at a name of a record. -/
def Value.cell : Value → Cell
  | .int i => .number i
  | .decimal d =>
    match d.rational? with
    | some q => .number q
    | none => .other (.decimal d)
  | v => .other v

/-- The datum of a cell. -/
def Cell.datum? : Cell → Option Datum
  | .number q => some (.number q)
  | .other v => v.datum?

/-- The cells of a record, by name. -/
abbrev Row := String → Option Cell

/-- The row of a record. -/
def Record.row (r : Record) : Row := fun name => (Record.field? r name).map Value.cell

/-- A key, as what its values stand for. -/
abbrev Place := List (Option Datum)

namespace Entity

/-- The place of a record: its key. -/
def place (e : Entity) (r : Record) : Place := (e.keyOf r).map Value.datum?

/-- Whether an update may change what stands at a name: a field has the name, and it is neither a
key field nor read-only. -/
def changes (e : Entity) (name : String) : Bool :=
  e.fields.any fun f => f.name == name && !f.isKey && !f.readOnly

/-- A row after an update by a record: only what the record has at names that may change. -/
def updated (e : Entity) (r : Record) (row : Row) : Row := fun name =>
  if e.changes name && Record.has r name then Record.row r name else row name

end Entity

/-! ## Cells -/

theorem Value.datum?_cell (v : Value) : v.cell.datum? = v.datum? := by
  cases v with
  | decimal d =>
      rw [cell, datum?]
      cases h : d.rational? with
      | some q => rfl
      | none => rw [Cell.datum?, datum?, h]
  | _ => rfl

theorem Fits.null_sameInKey {k : FieldKind} {v : Value} (h : Fits k v) :
    Value.null.sameInKey v = false ∧ v.sameInKey .null = false := by
  cases h <;> exact ⟨rfl, rfl⟩

theorem Fits.canBeKey {k : FieldKind} {v : Value} (h : Fits k v) : File.canBeKey v = true := by
  cases h <;> rfl

namespace Field

variable {f : Field} {v w : Value}

theorem cell_of_fits (h : Fits .numeric v) {q : ℚ} (hq : v.datum? = some (.number q)) :
    v.cell = .number q := by
  cases h with
  | int i =>
      cases hq
      rfl
  | decimal n c e =>
      cases hq
      rfl

/-- A value in the form of a field is the same cell when it is brought to that form again. -/
theorem cell_coerce (h : f.Holds v) (hw : f.coerce v = .ok w) : f.Holds w ∧ w.cell = v.cell := by
  obtain ⟨_, hw', hholds, hnull, hdatum, hsame⟩ := coerce_of_holds h
  cases hw.symm.trans hw'
  refine ⟨hholds, ?_⟩
  by_cases hk : f.kind = .numeric
  · rcases h with rfl | h
    · rw [Value.eq_null_of_isNull hnull]
    · have hfits := hholds.resolve_left fun he => by
        rw [he, h.not_null] at hnull
        cases hnull
      rw [hk] at h hfits
      obtain ⟨_, q, _, _, _, hq⟩ := h.exists_rational
      rw [cell_of_fits h hq, cell_of_fits hfits (hdatum.trans hq)]
  · rw [hsame hk]

/-- Values in the form of a field are the same in a key exactly if they stand for the same. -/
theorem sameInKey_iff (hv : f.Holds v) (hw : f.Holds w) :
    v.sameInKey w = true ↔ v.datum? = w.datum? := by
  rcases hv with rfl | hv
  · rcases hw with rfl | hw
    · exact iff_of_true rfl rfl
    · obtain ⟨b, hb⟩ := hw.exists_datum
      rw [hw.null_sameInKey.1, hb]
      exact iff_of_false Bool.false_ne_true nofun
  · rcases hw with rfl | hw
    · obtain ⟨a, ha⟩ := hv.exists_datum
      rw [hv.null_sameInKey.2, ha]
      exact iff_of_false Bool.false_ne_true nofun
    · exact Fits.sameInKey_iff hv hw

end Field

/-! ## Rows of records -/

namespace Record

/-- The datum at a name, by the row. -/
theorem datum?_field (r : Record) (name : String) :
    (field r name).datum? = (row r name).bind Cell.datum? := by
  rw [field, row]
  cases field? r name with
  | none => rfl
  | some v => exact (Value.datum?_cell v).symm

theorem mem_set {r : Record} {name : String} {v : Value} {entry : String × Value}
    (h : entry ∈ set r name v) : entry = (name, v) ∨ entry ∈ r := by
  induction r with
  | nil => exact Or.inl (List.mem_singleton.mp h)
  | cons first rest ih =>
      obtain ⟨k, w⟩ := first
      rw [set] at h
      split at h
      · next hk =>
          rcases List.mem_cons.mp h with rfl | h
          · exact Or.inl (by rw [hk])
          · exact Or.inr (List.mem_cons_of_mem _ h)
      · rcases List.mem_cons.mp h with rfl | h
        · exact Or.inr List.mem_cons_self
        · exact (ih h).imp_right (List.mem_cons_of_mem _)

theorem mem_of_field? {r : Record} {name : String} {v : Value} (h : field? r name = some v) :
    (name, v) ∈ r := by
  induction r with
  | nil => cases h
  | cons first rest ih =>
      obtain ⟨k, w⟩ := first
      rw [field?] at h
      split at h
      · next hk =>
          cases h
          rw [hk]
          exact List.mem_cons_self
      · exact List.mem_cons_of_mem _ (ih h)

end Record

namespace Entity

variable {e : Entity} {raw r s : Record}

/-- A record whose values have the form of their fields. -/
def Formed (e : Entity) (r : Record) : Prop :=
  ∀ entry ∈ r, ∀ f, fieldNamed? e.fields entry.1 = some f → f.Holds entry.2

theorem Formed.field (h : e.Formed r) {name : String} {f : Field}
    (hf : fieldNamed? e.fields name = some f) : f.Holds (Record.field r name) := by
  rw [Record.field]
  cases hv : Record.field? r name with
  | none => exact Or.inl rfl
  | some v => exact h _ (Record.mem_of_field? hv) f hf

theorem Formed.set (h : e.Formed r) {name : String} {v : Value}
    (hv : ∀ f, fieldNamed? e.fields name = some f → f.Holds v) :
    e.Formed (Record.set r name v) := by
  intro entry hentry f hf
  rcases Record.mem_set hentry with rfl | hentry
  · exact hv f hf
  · exact h entry hentry f hf

theorem formed_coerceEntries (h : coerceEntries e.fields raw = .ok r) : e.Formed r := by
  induction raw generalizing r with
  | nil =>
      cases h
      exact fun _ h => nomatch h
  | cons entry rest ih =>
      obtain ⟨name, v⟩ := entry
      obtain ⟨w, rest', hw, hr, rfl⟩ := coerceEntries_cons h
      intro entry hentry f hf
      rcases List.mem_cons.mp hentry with rfl | hentry
      · rw [hf] at hw
        exact Field.coerce_holds hw
      · exact ih hr entry hentry f hf

/-- A record in the form of the fields keeps its row when it is brought to that form again. -/
theorem coerce_of_formed (h : e.Formed r) :
    ∃ s, e.coerce r = .ok s ∧ e.Formed s ∧ Record.row s = Record.row r := by
  induction r with
  | nil => exact ⟨[], rfl, h, rfl⟩
  | cons entry rest ih =>
      obtain ⟨name, v⟩ := entry
      obtain ⟨s, hs, _, hrow⟩ := ih fun entry hentry => h entry (List.mem_cons_of_mem _ hentry)
      have hv : ∃ w, coerceFor (fieldNamed? e.fields name) v = .ok w ∧ w.cell = v.cell := by
        cases hf : fieldNamed? e.fields name with
        | none => exact ⟨v, rfl, rfl⟩
        | some f =>
            have hholds := h _ List.mem_cons_self f hf
            obtain ⟨w, hw, _⟩ := Field.coerce_of_holds hholds
            exact ⟨w, hw, (Field.cell_coerce hholds hw).2⟩
      obtain ⟨w, hw, hcell⟩ := hv
      have hcoerce : e.coerce ((name, v) :: rest) = .ok ((name, w) :: s) := by
        rw [coerce] at hs
        rw [coerce, coerceEntries, hw, hs]
        rfl
      refine ⟨(name, w) :: s, hcoerce, formed_coerceEntries hcoerce, funext fun other => ?_⟩
      rw [Record.row, Record.row, Record.field?, Record.field?]
      split
      · exact congrArg some hcell
      · exact congrFun hrow other

/-! ## Keys -/

theorem place_eq_map_row (e : Entity) (r : Record) :
    e.place r = e.keyNames.map fun name => (Record.row r name).bind Cell.datum? := by
  rw [place, keyOf, List.map_map]
  exact List.map_congr_left fun name _ => Record.datum?_field r name

/-- The place of a record depends on its row at the key fields. -/
theorem place_congr (h : ∀ name ∈ e.keyNames, Record.row r name = Record.row s name) :
    e.place r = e.place s := by
  rw [place_eq_map_row, place_eq_map_row]
  exact List.map_congr_left fun name hname => by rw [h name hname]

/-- A file takes the keys of two records for the same exactly if the records have one place. -/
theorem sameKey_iff_place (hr : e.Formed r) (hs : e.Formed s) :
    Value.sameKey (e.keyOf r) (e.keyOf s) = true ↔ e.place r = e.place s := by
  rw [place, place, keyOf, keyOf]
  have hnames : ∀ name ∈ e.keyNames, ∃ f, fieldNamed? e.fields name = some f :=
    fun _ h => exists_fieldNamed?_of_mem_keyNames h
  generalize e.keyNames = names at hnames
  induction names with
  | nil => exact iff_of_true rfl rfl
  | cons name names ih =>
      obtain ⟨f, hf⟩ := hnames name List.mem_cons_self
      simp only [List.map_cons, List.cons.injEq, Value.sameKey, Bool.and_eq_true]
      exact and_congr (Field.sameInKey_iff (hr.field hf) (hs.field hf))
        (ih fun name hname => hnames name (List.mem_cons_of_mem _ hname))

/-- The key of a record in the form of the fields can be looked up. -/
theorem canBeKey_of_formed (h : e.Formed r) : (e.keyOf r).all File.canBeKey = true := by
  rw [keyOf, List.all_map, List.all_eq_true]
  intro name hname
  obtain ⟨f, hf⟩ := exists_fieldNamed?_of_mem_keyNames hname
  rcases h.field hf with hv | hv
  · rw [Function.comp_apply, hv]
    rfl
  · exact hv.canBeKey

/-! ## Cutting a record to its fields -/

theorem field?_foldl_set (g : String → Value) (names : List String) (acc : Record) (name : String) :
    Record.field?
        ((names.map fun n => (n, g n)).foldl (fun r (k, v) => Record.set r k v) acc) name =
      if name ∈ names then some (g name) else Record.field? acc name := by
  induction names generalizing acc with
  | nil => rfl
  | cons n names ih =>
      rw [List.map_cons, List.foldl_cons, ih]
      by_cases hname : name = n
      · subst hname
        rw [Record.field?_set_self, if_pos List.mem_cons_self, ite_self]
      · simp only [List.mem_cons, hname, false_or, Record.field?_set_of_ne acc (g n) hname]

theorem field?_project (e : Entity) (r : Record) (name : String) :
    Record.field? (e.project r) name =
      if name ∈ e.fields.map (·.name) then some (Record.field r name) else none := by
  have hentries : e.fields.map (fun f => (f.name, Record.field r f.name)) =
      (e.fields.map (·.name)).map fun n => (n, Record.field r n) := by
    rw [List.map_map]
    rfl
  rw [project, Record.ofEntries, hentries, field?_foldl_set]
  rfl

theorem formed_foldl_set {entries : List (String × Value)} {acc : Record} (hacc : e.Formed acc)
    (h : e.Formed entries) :
    e.Formed (entries.foldl (fun r (k, v) => Record.set r k v) acc) := by
  induction entries generalizing acc with
  | nil => exact hacc
  | cons entry entries ih =>
      exact ih (hacc.set fun f hf => h entry List.mem_cons_self f hf)
        fun entry hentry => h entry (List.mem_cons_of_mem _ hentry)

theorem Formed.project (h : e.Formed r) : e.Formed (e.project r) := by
  refine formed_foldl_set (fun _ h => nomatch h) ?_
  intro entry hentry f hf
  obtain ⟨g, _, rfl⟩ := List.mem_map.mp hentry
  exact h.field hf

theorem place_project (e : Entity) (r : Record) : e.place (e.project r) = e.place r := by
  rw [place, place, keyOf, keyOf, List.map_map, List.map_map]
  refine List.map_congr_left fun name hname => ?_
  obtain ⟨f, hf, rfl⟩ := List.mem_map.mp hname
  rw [Function.comp_apply, Function.comp_apply, Record.field, field?_project,
    if_pos (List.mem_map_of_mem (List.mem_of_mem_filter hf)), Option.getD_some]

/-! ## Updating a record -/

/-- What a stored record has at a name, with the new values of another record. -/
theorem field?_merge (fields : List Field) (stored r : Record) (name : String) :
    Record.field? (FileService.merge fields stored r) name =
      if (fields.any fun f => f.name == name && !f.isKey && !f.readOnly) && Record.has r name
      then Record.field? r name else Record.field? stored name := by
  induction fields generalizing stored with
  | nil => rfl
  | cons f fields ih =>
      rw [FileService.merge]
      cases hv : Record.field? r f.name with
      | none =>
          simp only []
          rw [ih, List.any_cons]
          by_cases hname : f.name = name
          · rw [hname] at hv
            rw [show Record.has r name = false by rw [Record.has, hv]; rfl, Bool.and_false,
              Bool.and_false]
          · rw [beq_false_of_ne hname, Bool.false_and, Bool.false_and, Bool.false_or]
      | some v =>
          simp only []
          rw [ih, List.any_cons]
          by_cases hname : f.name = name
          · subst hname
            have hhas : Record.has r f.name = true := by rw [Record.has, hv]; rfl
            rw [hhas, Bool.and_true, Bool.and_true, beq_self_eq_true, Bool.true_and]
            cases f.isKey <;> cases f.readOnly <;>
              simp [Record.field?_set_self, hv]
          · rw [beq_false_of_ne hname, Bool.false_and, Bool.false_and, Bool.false_or]
            split
            · rfl
            · split
              · rfl
              · exact Record.field?_set_of_ne stored v (Ne.symm hname)

/-- The row of a stored record with the new values of another record. -/
theorem row_merge (fields : List Field) (stored r : Record) (name : String) :
    Record.row (FileService.merge fields stored r) name =
      if (fields.any fun f => f.name == name && !f.isKey && !f.readOnly) && Record.has r name
      then Record.row r name else Record.row stored name := by
  rw [Record.row, field?_merge]
  split <;> rfl

theorem Formed.merge (fields : List Field) (hr : e.Formed r) (hs : e.Formed s) :
    e.Formed (FileService.merge fields s r) := by
  induction fields generalizing s with
  | nil => exact hs
  | cons f fields ih =>
      rw [FileService.merge]
      cases hv : Record.field? r f.name with
      | none => exact ih hs
      | some v =>
          refine ih ?_
          split
          · exact hs
          · exact hs.set fun g hg => hr _ (Record.mem_of_field? hv) g hg

/-- Where field names are different, an update changes nothing at a key field. -/
theorem changes_eq_false (hnames : (e.fields.map (·.name)).Nodup) {name : String}
    (h : name ∈ e.keyNames) : e.changes name = false := by
  obtain ⟨f, hf, rfl⟩ := List.mem_map.mp h
  obtain ⟨hmem, hkey⟩ := List.mem_filter.mp hf
  rw [changes, List.any_eq_false]
  intro g hg hchange
  simp only [Bool.and_eq_true, beq_iff_eq, Bool.not_eq_true'] at hchange
  cases List.inj_on_of_nodup_map hnames hg hmem hchange.1.1
  rw [hkey] at hchange
  cases hchange.1.2

theorem place_merge (hnames : (e.fields.map (·.name)).Nodup) (stored r : Record) :
    e.place (FileService.merge e.fields stored r) = e.place stored := by
  refine place_congr fun name hname => ?_
  have hfalse := changes_eq_false hnames hname
  rw [changes] at hfalse
  rw [row_merge, hfalse, Bool.false_and, if_neg Bool.false_ne_true]

end Entity

/-- What a file makes of a record has the form of the fields. -/
theorem File.formed_of_coerce {f : File} {r c : Record} (h : f.coerce r = .ok c) :
    f.entity.Formed c :=
  Entity.formed_coerceEntries (Outcome.ok_of_mapError h)

end Rowgate
