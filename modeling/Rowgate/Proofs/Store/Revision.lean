import Rowgate.Proofs.Store.Findings

/-!
# What a body changes in a file

A write that changes a record passes three filters: what the body says of the fields, which of them may
be set, and the form of the fields on the way into the file. `Entity.Revised` says field by field what
comes of it, in terms of the body and the old record alone. `Entity.Names` says which record it happens
to, and `exists_revised` that nothing happens to any other.
-/

namespace Rowgate

/-- Whether an update may set a field. -/
def Field.isSettable (f : Field) : Bool := !f.isKey && !f.readOnly

theorem Field.isSettable_iff {f : Field} :
    f.isSettable = true ↔ f.isKey = false ∧ f.readOnly = false := by
  rw [isSettable, Bool.and_eq_true, Bool.not_eq_true', Bool.not_eq_true']

namespace Entity

/-- Whether a body gives the key of a record: it has a value for every key field that is not null and
can be brought to the form of the field, and the record has the same there. -/
def Names (e : Entity) (body r : Record) : Prop :=
  ∀ f ∈ e.keyFields, ∃ v w, Record.field? body f.name = some v ∧ f.coerce v = .ok w ∧
    w.isNull = false ∧ (Record.field r f.name).sameInKey w = true

/-- What a record is after a write by a body, which replaces the record or only adds to it. -/
structure Revised (e : Entity) (replaces : Bool) (body old new : Record) : Prop where
  /-- What the body has of a field that may be set is taken, in the form of the field. -/
  taken : ∀ f ∈ e.fields, f.isKey = false → f.readOnly = false → ∀ v w,
    Record.field? body f.name = some v → f.coerce v = .ok w →
      ∃ u, Record.field? new f.name = some u ∧ u.equals w = true
  /-- What a body that replaces the record leaves out is null. -/
  emptied : ∀ f ∈ e.fields, f.isKey = false → f.readOnly = false → replaces = true →
    Record.field? body f.name = none → Record.field? new f.name = some .null
  /-- Key fields, read-only fields, fields that a body only does not mention, and fields of which the
  body has what they cannot take stay as they were. -/
  kept : ∀ f ∈ e.fields,
    (f.isKey = true ∨ f.readOnly = true ∨
      (replaces = false ∧ Record.field? body f.name = none) ∨
      ∃ v fault, Record.field? body f.name = some v ∧ f.coerce v = .error fault) →
    Option.Rel (fun v w => v.equals w = true) (Record.field? old f.name) (Record.field? new f.name)
  /-- So does what stands at a name that is no field. -/
  others : ∀ name, name ∉ e.fields.map (·.name) → Record.field? new name = Record.field? old name

end Entity

section Bodies

variable {e : Entity} {body r old new : Record} {replaces : Bool} {f : Field}

/-- What a body says of the fields of an entity. -/
def saidOf (e : Entity) (replaces : Bool) (body : Record) : Record :=
  e.fields.foldl (saying body replaces) []

theorem field?_saidOf (hnames : (e.fields.map (·.name)).Nodup) (hf : f ∈ e.fields) :
    Record.field? (saidOf e replaces body) f.name = f.said body replaces :=
  field?_foldl_saying hnames (fun _ _ => rfl) f hf

/-- What a write says in the form of the fields is what the body says of them. -/
theorem same_saidOf (hnames : (e.fields.map (·.name)).Nodup)
    (hr : e.coerce (saidOf e replaces body) = .ok r) : e.Same r (saidOf e replaces body) :=
  Entity.same_coerce hnames (formed_foldl_saying hnames (fun _ => id) fun _ h => nomatch h) hr

theorem rel_said (hnames : (e.fields.map (·.name)).Nodup)
    (hr : e.coerce (saidOf e replaces body) = .ok r) (hf : f ∈ e.fields) :
    Option.Rel f.Same (Record.field? r f.name) (f.said body replaces) := by
  rw [← field?_saidOf hnames hf]
  exact (same_saidOf hnames hr).fields f hf

theorem changes_of_mem (hnames : (e.fields.map (·.name)).Nodup) (hf : f ∈ e.fields) :
    e.changes f.name = f.isSettable := by
  rw [Entity.changes, Bool.eq_iff_iff, List.any_eq_true]
  constructor
  · rintro ⟨g, hg, h⟩
    rw [Bool.and_assoc, Bool.and_eq_true, beq_iff_eq] at h
    rw [← List.inj_on_of_nodup_map hnames hg hf h.1]
    exact h.2
  · intro h
    refine ⟨f, hf, ?_⟩
    rw [Bool.and_assoc, beq_self_eq_true, Bool.true_and]
    exact h

theorem field?_merge_of_mem (hnames : (e.fields.map (·.name)).Nodup) (hf : f ∈ e.fields) :
    Record.field? (FileService.merge e.fields old r) f.name =
      if f.isSettable then (Record.field? r f.name).or (Record.field? old f.name)
      else Record.field? old f.name := by
  rw [Entity.field?_merge, ← Entity.changes, changes_of_mem hnames hf, Record.has]
  cases f.isSettable with
  | false => rfl
  | true => cases Record.field? r f.name <;> rfl

theorem field?_merge_of_not_mem {name : String} (h : name ∉ e.fields.map (·.name)) :
    Record.field? (FileService.merge e.fields old r) name = Record.field? old name := by
  have hunset : e.changes name = false := by
    rw [Entity.changes, List.any_eq_false]
    intro g hg hsame
    rw [Bool.and_assoc, Bool.and_eq_true, beq_iff_eq] at hsame
    exact h (List.mem_map.mpr ⟨g, hg, hsame.1⟩)
  rw [Entity.field?_merge, ← Entity.changes, hunset, Bool.false_and, if_neg Bool.false_ne_true]

theorem rel_or {a b b' c : Option Value} (h : Option.Rel f.Same a (b.or c))
    (h' : Option.Rel f.Same b b') : Option.Rel f.Same a (b'.or c) := by
  cases h' with
  | none => exact h
  | some hright =>
      cases h with
      | some hleft => exact .some (hleft.trans hright)

theorem rel_updated (hnames : (e.fields.map (·.name)).Nodup)
    (hr : e.coerce (saidOf e replaces body) = .ok r)
    (hnew : e.Same new (FileService.merge e.fields old r)) (hf : f ∈ e.fields) :
    Option.Rel f.Same (Record.field? new f.name)
      (if f.isSettable then (f.said body replaces).or (Record.field? old f.name)
        else Record.field? old f.name) := by
  have hrel := hnew.fields f hf
  rw [field?_merge_of_mem hnames hf] at hrel
  split
  · next hset =>
      rw [if_pos hset] at hrel
      exact rel_or hrel (rel_said hnames hr hf)
  · next hset =>
      rw [if_neg hset] at hrel
      exact hrel

theorem exists_of_rel {a : Option Value} {w : Value} (h : Option.Rel f.Same a (some w)) :
    ∃ u, a = some u ∧ f.Same u w := by
  cases h with
  | some hsame => exact ⟨_, rfl, hsame⟩

theorem rel_equals {a b : Option Value} (h : Option.Rel f.Same a b) :
    Option.Rel (fun v w => v.equals w = true) b a := by
  cases h with
  | none => exact .none
  | some hsame => exact .some hsame.symm.equals

theorem said_of_none (h : Record.field? body f.name = none) :
    f.said body replaces = if replaces then some .null else none := by
  rw [Field.said, h]

theorem said_of_some {v : Value} (h : Record.field? body f.name = some v) :
    f.said body replaces = (f.coerce v).toOption := by
  rw [Field.said, h]

/-- A record is revised by a body when it is updated by what the body says. -/
theorem revised_of_same (hnames : (e.fields.map (·.name)).Nodup)
    (hr : e.coerce (saidOf e replaces body) = .ok r)
    (hnew : e.Same new (FileService.merge e.fields old r)) : e.Revised replaces body old new where
  taken f hf hkey hro v w hv hw := by
    have hrel := rel_updated hnames hr hnew hf
    rw [if_pos (Field.isSettable_iff.mpr ⟨hkey, hro⟩), said_of_some hv, hw] at hrel
    obtain ⟨u, hu, hsame⟩ := exists_of_rel hrel
    exact ⟨u, hu, hsame.equals⟩
  emptied f hf hkey hro hreplaces hv := by
    have hrel := rel_updated hnames hr hnew hf
    rw [if_pos (Field.isSettable_iff.mpr ⟨hkey, hro⟩), said_of_none hv, if_pos hreplaces] at hrel
    obtain ⟨u, hu, hsame⟩ := exists_of_rel hrel
    rw [hu, hsame.eq_null]
  kept f hf hkept := by
    have hrel := rel_updated hnames hr hnew hf
    have hold : (if f.isSettable then
        (f.said body replaces).or (Record.field? old f.name) else Record.field? old f.name) =
          Record.field? old f.name := by
      rcases hkept with hkey | hro | ⟨hadds, hv⟩ | ⟨v, fault, hv, hw⟩
      · refine if_neg fun hset => ?_
        rw [(Field.isSettable_iff.mp hset).1] at hkey
        cases hkey
      · refine if_neg fun hset => ?_
        rw [(Field.isSettable_iff.mp hset).2] at hro
        cases hro
      · rw [said_of_none hv, hadds, if_neg Bool.false_ne_true, Option.none_or, ite_self]
      · rw [said_of_some hv, hw]
        exact ite_self _
    rw [hold] at hrel
    exact rel_equals hrel
  others name hname := by rw [hnew.others name hname, field?_merge_of_not_mem hname]

/-! ## The key -/

/-- What a body says of a field that the write gives a value is what the body has, in the form of the
field. -/
theorem exists_of_said_not_null {w : Value} (h : f.said body replaces = some w)
    (hw : w.isNull = false) : ∃ v, Record.field? body f.name = some v ∧ f.coerce v = .ok w := by
  cases hv : Record.field? body f.name with
  | none =>
      rw [said_of_none hv] at h
      split at h
      · rw [← Option.some_inj.mp h] at hw
        cases hw
      · cases h
  | some v =>
      rw [said_of_some hv] at h
      refine ⟨v, rfl, ?_⟩
      cases hc : f.coerce v with
      | ok u =>
          rw [hc] at h
          rw [Option.some_inj.mp h]
      | error fault =>
          rw [hc] at h
          cases h

/-- The body of a write that gives all of a key has the values of that key. -/
theorem exists_of_keyed (hnames : (e.fields.map (·.name)).Nodup)
    (hr : e.Keyed (saidOf e replaces body) r) (hf : f ∈ e.keyFields) :
    ∃ v w, Record.field? body f.name = some v ∧ f.coerce v = .ok w ∧ w.isNull = false ∧
      f.Same (Record.field r f.name) w := by
  have hnull : (Record.field r f.name).isNull = false := by
    have hmissing := hr.2
    rw [Entity.missingKeys, List.filter_eq_nil_iff] at hmissing
    simpa using hmissing f.name (List.mem_map_of_mem hf)
  have hrel := rel_said hnames hr.1 (List.mem_of_mem_filter hf)
  cases hw : f.said body replaces with
  | none =>
      rw [hw] at hrel
      cases hu : Record.field? r f.name with
      | none =>
          rw [Record.field, hu] at hnull
          cases hnull
      | some u =>
          rw [hu] at hrel
          cases hrel
  | some w =>
      rw [hw] at hrel
      obtain ⟨u, hu, hsame⟩ := exists_of_rel hrel
      have hfield : Record.field r f.name = u := by
        rw [Record.field, hu]
        rfl
      rw [hfield] at hnull ⊢
      have hw' : w.isNull = false := by
        cases h : w.isNull with
        | false => rfl
        | true =>
            rw [Value.eq_null_of_isNull h] at hsame
            rw [hsame.eq_null] at hnull
            cases hnull
      obtain ⟨v, hv, hc⟩ := exists_of_said_not_null hw hw'
      exact ⟨v, w, hv, hc, hw', hsame⟩

/-- The records at the place that a body says are those whose key the body gives. -/
theorem names_iff_place {s : Record} (hnames : (e.fields.map (·.name)).Nodup)
    (hr : e.Keyed (saidOf e replaces body) r) (hs : e.Formed s) :
    e.Names body s ↔ e.place s = e.place r := by
  have hplace : e.place s = e.place r ↔
      ∀ f ∈ e.keyFields, (Record.field s f.name).datum? = (Record.field r f.name).datum? := by
    rw [Entity.place, Entity.place, Entity.keyOf, Entity.keyOf, Entity.keyNames, List.map_map,
      List.map_map, List.map_map, List.map_map]
    exact List.map_inj_left
  rw [hplace]
  -- key field by key field: what the write has is what the body has, up to its spelling
  refine forall₂_congr fun f hf => ?_
  obtain ⟨v, w, hv, hw, hnull, hsame⟩ := exists_of_keyed hnames hr hf
  have hholds : f.Holds (Record.field s f.name) :=
    hs.field (Entity.fieldNamed?_of_mem hnames (List.mem_of_mem_filter hf))
  rw [hsame.datum, ← Field.sameInKey_iff hholds hsame.right]
  constructor
  · rintro ⟨v', w', hv', hw', -, hkey⟩
    cases hv.symm.trans hv'
    cases hw.symm.trans hw'
    exact hkey
  · intro hkey
    exact ⟨v, w, hv, hw, hnull, hkey⟩

end Bodies

/-! ## Files -/

/-- An update by what a body says that finds nothing wrong has revised the record whose key the body
gives, and nothing else. -/
theorem FileService.exists_revised {s : FileService} {f g : File} {replaces : Bool} {body : Record}
    (hf : f.Sound) (h : (s.update (saidOf f.entity replaces body)).outcome f = (.ok [], g)) :
    ∃ before old new after, f.records = before ++ old :: after ∧
      g = { f with records := before ++ new :: after } ∧ f.entity.Names body old ∧
      (∀ other ∈ before ++ after, ¬ f.entity.Names body other) ∧
      f.entity.Revised replaces body old new := by
  obtain ⟨r, old, new, before, after, hr, hold, hrecords, hg, hsame, hothers⟩ := exists_of_update hf h
  have hformed : ∀ other ∈ before ++ old :: after, f.entity.Formed other :=
    fun other hother => hf.formed other (hrecords ▸ hother)
  refine ⟨before, old, new, after, hrecords, hg, ?_, fun other hother => ?_, ?_⟩
  · rw [names_iff_place hf.names hr (hformed old (by simp))]
    rw [hf.find?_eq (Entity.formed_coerceEntries hr.1)] at hold
    simpa using List.find?_some hold
  · rw [names_iff_place hf.names hr]
    · exact hothers other hother
    · refine hformed other ?_
      rcases List.mem_append.mp hother with hother | hother
      · exact List.mem_append_left _ hother
      · exact List.mem_append_right _ (List.mem_cons_of_mem _ hother)
  · exact revised_of_same hf.names hr.1 hsame

end Rowgate
