import Mathlib.Data.Option.Basic
import Rowgate.Proofs.Request.Fields
import Rowgate.Proofs.Store.Refinement

/-!
# Records that say the same

On its way into a file a value is brought to the form of its field more than once, and each time a
number may be spelled in another way. `Field.Same` is what is left of a value: two values have the form
of a field and stand for the same, so they are equal. `Entity.Same` is the like for records. At names
that are no fields nothing happens to a record, so there the values have to be the very same.
-/

namespace Rowgate

theorem Value.equals_of_sameInKey {v w : Value} (h : v.sameInKey w = true) : v.equals w = true := by
  rw [sameInKey.eq_def] at h
  split at h
  · rw [Time.coincides, Bool.and_eq_true] at h
    rw [equals]
    exact h.1
  · exact h

/-! ## Values -/

namespace Field

variable {f : Field} {u v w : Value}

/-- Whether two values have the form of a field and stand for the same. -/
structure Same (f : Field) (v w : Value) : Prop where
  left : f.Holds v
  right : f.Holds w
  datum : v.datum? = w.datum?

theorem Holds.same (h : f.Holds v) : f.Same v v := ⟨h, h, rfl⟩

theorem Same.symm (h : f.Same v w) : f.Same w v := ⟨h.right, h.left, h.datum.symm⟩

theorem Same.trans (h : f.Same u v) (h' : f.Same v w) : f.Same u w :=
  ⟨h.left, h'.right, h.datum.trans h'.datum⟩

theorem Same.sameInKey (h : f.Same v w) : v.sameInKey w = true :=
  (sameInKey_iff h.left h.right).mpr h.datum

theorem Same.equals (h : f.Same v w) : v.equals w = true := Value.equals_of_sameInKey h.sameInKey

theorem Same.eq_null (h : f.Same v .null) : v = .null := by
  refine h.left.resolve_right fun hfits => ?_
  obtain ⟨a, ha⟩ := hfits.exists_datum
  rw [h.datum] at ha
  cases ha

/-- A value in the form of a field is the same when it is brought to that form again. -/
theorem same_coerce (h : f.Holds v) (hw : f.coerce v = .ok w) : f.Same w v := by
  obtain ⟨_, hw', hholds, -, hdatum, -⟩ := coerce_of_holds h
  cases hw.symm.trans hw'
  exact ⟨hholds, h, hdatum⟩

end Field

/-! ## Records -/

namespace Entity

variable {e : Entity} {r s t : Record} {f : Field}

/-- Whether two records say the same of every field, and have the same at all other names. -/
structure Same (e : Entity) (r s : Record) : Prop where
  fields : ∀ f ∈ e.fields, Option.Rel f.Same (Record.field? r f.name) (Record.field? s f.name)
  others : ∀ name, name ∉ e.fields.map (·.name) → Record.field? r name = Record.field? s name

/-- A record in the form of the fields says the same when it is brought to that form again. -/
theorem same_coerce (hnames : (e.fields.map (·.name)).Nodup) (hr : e.Formed r)
    (h : e.coerce r = .ok s) : e.Same s r := by
  refine ⟨fun f hf => ?_, fun name hname => ?_⟩
  · have hnamed := fieldNamed?_of_mem hnames hf
    rcases field?_coerceEntries h f.name with ⟨hr', hs⟩ | ⟨v, w, hv, hs, hw⟩
    · rw [hr', hs]
      exact .none
    · rw [hnamed] at hw
      rw [hv, hs]
      exact .some (Field.same_coerce (hr _ (Record.mem_of_field? hv) f hnamed) hw)
  · have hunnamed : fieldNamed? e.fields name = none := by
      rw [fieldNamed?, List.find?_eq_none]
      intro g hg hsame
      exact hname (List.mem_map.mpr ⟨g, List.mem_reverse.mp hg, beq_iff_eq.mp hsame⟩)
    rcases field?_coerceEntries h name with ⟨hr', hs⟩ | ⟨v, w, hv, hs, hw⟩
    · rw [hr', hs]
    · rw [hunnamed] at hw
      rw [hv, hs, Except.ok.inj hw]

theorem Same.exists_field? (h : e.Same r s) (hf : f ∈ e.fields) {w : Value}
    (hw : Record.field? s f.name = some w) :
    ∃ v, Record.field? r f.name = some v ∧ f.Same v w := by
  have hrel := h.fields f hf
  rw [hw] at hrel
  cases hv : Record.field? r f.name with
  | none =>
      rw [hv] at hrel
      cases hrel
  | some v =>
      rw [hv] at hrel
      cases hrel
      exact ⟨v, rfl, by assumption⟩

end Entity

/-! ## Files -/

namespace File

variable {f : File} {old r : Record}

/-- A record that takes the place of another one stands where that one stood, and all else stays. -/
theorem Sound.exists_put (hf : f.Sound) (hr : f.entity.Formed r)
    (hold : f.find? (f.keyOf r) = some old) :
    ∃ before after, f.records = before ++ old :: after ∧
      f.put r = { f with records := before ++ r :: after } ∧
      ∀ other ∈ before ++ after, f.entity.place other ≠ f.entity.place r := by
  obtain ⟨before, after, hrecords⟩ := List.append_of_mem (mem_of_find? hold)
  have hplace : f.entity.place old = f.entity.place r := by
    rw [hf.find?_eq hr] at hold
    simpa using List.find?_some hold
  -- there is one record at each place, so `put` meets no other one to replace
  have hothers : ∀ other ∈ before ++ after, f.entity.place other ≠ f.entity.place r := by
    have hplaces := hf.places
    rw [hrecords, List.map_append, List.map_cons, List.nodup_middle, ← List.map_append,
      hplace] at hplaces
    exact fun other hother heq =>
      (List.nodup_cons.mp hplaces).1 (List.mem_map.mpr ⟨other, hother, heq⟩)
  have hkept : ∀ rs : List Record, (∀ other ∈ rs, f.entity.place other ≠ f.entity.place r) →
      (rs.map fun s => if f.entity.place s = f.entity.place r then r else s) = rs :=
    fun rs hrs =>
      (List.map_congr_left fun other hother => if_neg (hrs other hother)).trans (List.map_id rs)
  have hput : (f.put r).records = before ++ r :: after := by
    rw [hf.records_put hr, hrecords, List.map_append, List.map_cons, if_pos hplace,
      hkept before fun other h => hothers other (List.mem_append_left _ h),
      hkept after fun other h => hothers other (List.mem_append_right _ h)]
  exact ⟨before, after, hrecords, congrArg (File.mk f.entity) hput, hothers⟩

end File

end Rowgate
