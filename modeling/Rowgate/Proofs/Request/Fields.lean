import Rowgate.Proofs.Store.Rows
import Rowgate.Request.Fields

/-!
# What a body says of the fields

Reading the fields of a body never fails: a member that its field cannot take is passed over. So there
is one record that a body says of an entity (`result_fieldsIn`). It has the form of the fields, and
where field names are different it has at each of them what the body says of that field.
-/

namespace Rowgate

/-- What a body says of a field, if its member can be brought to the form of the field. -/
def Field.said (f : Field) (body : Record) (replaces : Bool) : Option Value :=
  match Record.field? body f.name with
  | none => if replaces then some .null else none
  | some v => (f.coerce v).toOption

/-- A record with what a body says of a field. -/
def saying (body : Record) (replaces : Bool) (r : Record) (f : Field) : Record :=
  match f.said body replaces with
  | some v => Record.set r f.name v
  | none => r

variable {body acc : Record} {replaces : Bool} {e : Entity} {f : Field} {fields : List Field}

theorem result_fieldOfBody (body : Record) (replaces : Bool) (e : Entity) (f : Field) :
    (fieldOfBody body replaces e f).result = .ok (f.said body replaces) := by
  rw [fieldOfBody, Field.said]
  cases Record.field? body f.name with
  | none => rfl
  | some v =>
      dsimp only
      cases f.coerce v <;> rfl

theorem result_fieldsOfBody (body : Record) (replaces : Bool) (e : Entity) (acc : Record)
    (fields : List Field) :
    (fieldsOfBody body replaces e acc fields).result =
      .ok (fields.foldl (saying body replaces) acc) := by
  induction fields generalizing acc with
  | nil => rfl
  | cons f fields ih =>
      rw [fieldsOfBody, Traced.result_bind, result_fieldOfBody, List.foldl_cons, saying]
      cases f.said body replaces with
      | none => exact ih acc
      | some v => exact ih (Record.set acc f.name v)

/-- The record that a body says of an entity. -/
theorem result_fieldsIn (e : Entity) (method : Method) (body : Record) :
    (e.fieldsIn method body).result =
      .ok (e.fields.foldl (saying body (method == .put)) []) :=
  result_fieldsOfBody body _ e [] e.fields

/-! ## At one field -/

theorem field?_saying_self (hacc : Record.field? acc f.name = none) :
    Record.field? (saying body replaces acc f) f.name = f.said body replaces := by
  rw [saying]
  cases f.said body replaces with
  | none => exact hacc
  | some v => exact Record.field?_set_self acc f.name v

theorem field?_saying_of_ne {name : String} (h : name ≠ f.name) :
    Record.field? (saying body replaces acc f) name = Record.field? acc name := by
  rw [saying]
  cases f.said body replaces with
  | none => rfl
  | some v => exact Record.field?_set_of_ne acc v h

theorem field?_foldl_saying_of_not_mem {name : String} (h : name ∉ fields.map (·.name)) :
    Record.field? (fields.foldl (saying body replaces) acc) name = Record.field? acc name := by
  induction fields generalizing acc with
  | nil => rfl
  | cons f fields ih =>
      rw [List.map_cons, List.mem_cons, not_or] at h
      rw [List.foldl_cons, ih h.2, field?_saying_of_ne h.1]

theorem field?_foldl_saying (hnames : (fields.map (·.name)).Nodup)
    (hacc : ∀ f ∈ fields, Record.field? acc f.name = none) :
    ∀ f ∈ fields,
      Record.field? (fields.foldl (saying body replaces) acc) f.name = f.said body replaces := by
  induction fields generalizing acc with
  | nil => exact List.forall_mem_nil _
  | cons first fields ih =>
      obtain ⟨hfirst, hrest⟩ := List.nodup_cons.mp hnames
      obtain ⟨hfree, hfrees⟩ := List.forall_mem_cons.mp hacc
      refine List.forall_mem_cons.mpr ⟨?_, ?_⟩
      · rw [List.foldl_cons, field?_foldl_saying_of_not_mem hfirst, field?_saying_self hfree]
      · refine ih hrest fun f hf => ?_
        have hne : f.name ≠ first.name := fun heq =>
          hfirst (List.mem_map.mpr ⟨f, hf, heq⟩)
        rw [field?_saying_of_ne hne, hfrees f hf]

/-! ## The form of the fields -/

theorem Entity.fieldNamed?_of_mem (hnames : (e.fields.map (·.name)).Nodup) (hf : f ∈ e.fields) :
    fieldNamed? e.fields f.name = some f := by
  obtain ⟨g, hg⟩ := e.exists_fieldNamed?_of_mem (List.mem_map_of_mem (f := (·.name)) hf)
  obtain ⟨hmem, hname⟩ := mem_of_fieldNamed? hg
  rw [hg, List.inj_on_of_nodup_map hnames hmem hf hname]

/-- What a body says of a field came out of the field. -/
theorem Field.made_of_said {v : Value} (h : f.said body replaces = some v) :
    ∃ x, f.coerce x = .ok v := by
  rw [said] at h
  cases hv : Record.field? body f.name with
  | none =>
      rw [hv] at h
      cases replaces with
      | false => cases h
      | true =>
          cases h
          exact ⟨.null, rfl⟩
  | some w =>
      rw [hv] at h
      replace h : (f.coerce w).toOption = some v := h
      cases hw : f.coerce w with
      | error fault =>
          rw [hw] at h
          cases h
      | ok u =>
          rw [hw] at h
          cases h
          exact ⟨w, hw⟩

theorem Field.said_holds {v : Value} (h : f.said body replaces = some v) : f.Holds v := by
  obtain ⟨x, hx⟩ := made_of_said h
  exact coerce_holds hx

theorem formed_foldl_saying (hnames : (e.fields.map (·.name)).Nodup)
    (hfields : ∀ f ∈ fields, f ∈ e.fields) (hacc : e.Formed acc) :
    e.Formed (fields.foldl (saying body replaces) acc) := by
  induction fields generalizing acc with
  | nil => exact hacc
  | cons f fields ih =>
      obtain ⟨hf, hrest⟩ := List.forall_mem_cons.mp hfields
      refine ih hrest ?_
      rw [saying]
      cases hv : f.said body replaces with
      | none => exact hacc
      | some v =>
          refine hacc.set fun g hg => ?_
          rw [Entity.fieldNamed?_of_mem hnames hf, Option.some_inj] at hg
          exact hg ▸ Field.said_holds hv

end Rowgate
