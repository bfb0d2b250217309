import Rowgate.Proofs.Store.Complete
import Rowgate.Proofs.Store.KeyOrder
import Rowgate.Proofs.Value.Sent

/-!
# Records that show the same

A client is shown the fields of a record, and an integral number looks the same to it whether it is
kept as an integer or as a decimal. `Entity.ShowsAs` says that a client cannot tell two records apart.
Nor can a file: such records have one place, and their keys compare with other keys in the same way,
so a scan is not changed by putting one in the place of the other (`File.scan_map`).
-/

namespace Rowgate

open Outcome

/-! ## Values -/

namespace Fits

variable {k : FieldKind} {v v' w w' : Value}

theorem reread_eq (h : Fits k v) (hk : k ≠ .numeric) : v.reread = v := by
  cases h <;> first | rfl | exact absurd rfl hk

theorem datum?_reread (h : Fits k v) : v.reread.datum? = v.datum? := by
  cases h with
  | decimal n c e =>
      rw [Value.reread, Decimal.reread]
      split
      · next hi =>
          rw [Value.datum?, Decimal.truncate_of_isIntegral hi]
          rfl
      · rfl
  | _ => rfl

theorem compared_null (h : Fits k v) :
    v.equals .null = false ∧ v.compare .null = .error .unlike := by
  cases h <;> exact ⟨rfl, rfl⟩

/-- Values of which the same is read back compare with each other as the values themselves do. -/
theorem compared_congr (hv : Fits k v) (hv' : Fits k v') (hw : Fits k w) (hw' : Fits k w')
    (h : v'.reread = v.reread) (h' : w'.reread = w.reread) :
    v'.equals w' = v.equals w ∧ v'.compare w' = v.compare w := by
  by_cases hk : k = .numeric
  -- only numbers are read back in another form, and they compare as the rationals they stand for
  · subst hk
    have hequals : ∀ {a b : Value}, Fits .numeric a → a.equals b = a.sameNumber b := by
      intro a b ha
      cases ha <;> rfl
    have hcompare : ∀ {a b : Value}, Fits .numeric a → a.compare b = a.compareNumbers b := by
      intro a b ha
      cases ha <;> rfl
    obtain ⟨p, q, hp, hq, hcmp, hsame, -⟩ := numbers hv hw
    obtain ⟨p', q', hp', hq', hcmp', hsame', -⟩ := numbers hv' hw'
    have hpp : p' = p := by
      rw [← hv'.datum?_reread, h, hv.datum?_reread, hp] at hp'
      cases hp'
      rfl
    have hqq : q' = q := by
      rw [← hw'.datum?_reread, h', hw.datum?_reread, hq] at hq'
      cases hq'
      rfl
    rw [hequals hv, hequals hv', hcompare hv, hcompare hv', hsame, hsame', hcmp, hcmp', hpp, hqq]
    exact ⟨rfl, rfl⟩
  · rw [hv.reread_eq hk, hv'.reread_eq hk] at h
    rw [hw.reread_eq hk, hw'.reread_eq hk] at h'
    rw [h, h']
    exact ⟨rfl, rfl⟩

end Fits

theorem Value.eq_null_of_reread {v : Value} (h : v.reread = .null) : v = .null := by
  refine Value.eq_null_of_isNull ?_
  rw [← Value.isNull_reread, h]
  rfl

namespace Field

variable {f : Field} {v v' w w' : Value}

theorem datum?_reread (h : f.Holds v) : v.reread.datum? = v.datum? := by
  rcases h with rfl | h
  · rfl
  · exact h.datum?_reread

theorem fits_of_reread (hv : Fits f.kind v) (hv' : f.Holds v') (h : v'.reread = v.reread) :
    Fits f.kind v' := by
  refine hv'.resolve_left ?_
  rintro rfl
  have hnull := hv.not_null
  rw [Value.eq_null_of_reread h.symm] at hnull
  cases hnull

theorem compared_congr (hv : f.Holds v) (hv' : f.Holds v') (hw : f.Holds w) (hw' : f.Holds w')
    (h : v'.reread = v.reread) (h' : w'.reread = w.reread) :
    v'.equals w' = v.equals w ∧ v'.compare w' = v.compare w := by
  rcases hv with rfl | hv
  · rw [Value.eq_null_of_reread h]
    refine ⟨?_, rfl⟩
    rw [Value.equals, Value.equals, ← Value.isNull_reread, h', Value.isNull_reread]
  · replace hv' := fits_of_reread hv hv' h
    rcases hw with rfl | hw
    · rw [Value.eq_null_of_reread h', hv.compared_null.1, hv.compared_null.2, hv'.compared_null.1,
        hv'.compared_null.2]
      exact ⟨rfl, rfl⟩
    · exact Fits.compared_congr hv hv' hw (fits_of_reread hw hw' h') h h'

end Field

/-! ## Records -/

namespace Entity

variable {e : Entity} {r s t a b a' b' : Record}

/-- Whether a client that is shown one of two records is shown the same as of the other. -/
def ShowsAs (e : Entity) (r s : Record) : Prop :=
  ∀ f ∈ e.fields, (Record.field s f.name).reread = (Record.field r f.name).reread

theorem ShowsAs.refl (e : Entity) (r : Record) : e.ShowsAs r r := fun _ _ => rfl

theorem ShowsAs.trans (h : e.ShowsAs r s) (h' : e.ShowsAs s t) : e.ShowsAs r t :=
  fun f hf => (h' f hf).trans (h f hf)

theorem ShowsAs.reread_project (hnames : (e.fields.map (·.name)).Nodup) (h : e.ShowsAs r s) :
    (Value.dict (e.project s)).reread = (Value.dict (e.project r)).reread := by
  rw [e.project_eq_map hnames, e.project_eq_map hnames, Value.reread, Value.reread,
    Value.rereadEntries_eq_map, Value.rereadEntries_eq_map, List.map_map, List.map_map]
  exact congrArg Value.dict (List.map_congr_left fun f hf => congrArg (f.name, ·) (h f hf))

theorem mem_keyNames {name : String} (h : name ∈ e.keyNames) :
    ∃ f ∈ e.fields, f.name = name := by
  obtain ⟨f, hf, rfl⟩ := List.mem_map.mp h
  exact ⟨f, List.mem_of_mem_filter hf, rfl⟩

theorem ShowsAs.reread_key (h : e.ShowsAs r s) {name : String} (hname : name ∈ e.keyNames) :
    (Record.field s name).reread = (Record.field r name).reread := by
  obtain ⟨f, hf, rfl⟩ := mem_keyNames hname
  exact h f hf

theorem ShowsAs.place_eq (h : e.ShowsAs r s) (hr : e.Formed r) (hs : e.Formed s) :
    e.place s = e.place r := by
  rw [place, place, keyOf, keyOf, List.map_map, List.map_map]
  refine List.map_congr_left fun name hname => ?_
  obtain ⟨f, hf⟩ := exists_fieldNamed?_of_mem_keyNames hname
  rw [Function.comp_apply, Function.comp_apply, ← Field.datum?_reread (hs.field hf),
    h.reread_key hname, Field.datum?_reread (hr.field hf)]

/-- Keys compare in the same way, whichever of two records that show the same they are of. -/
theorem ShowsAs.compareItems_keyOf (ha : e.Formed a) (ha' : e.Formed a') (hb : e.Formed b)
    (hb' : e.Formed b') (h : e.ShowsAs a a') (h' : e.ShowsAs b b') :
    Value.compareItems (e.keyOf a') (e.keyOf b') = Value.compareItems (e.keyOf a) (e.keyOf b) := by
  rw [keyOf, keyOf, keyOf, keyOf]
  have hnames : ∀ name ∈ e.keyNames, (∃ f, fieldNamed? e.fields name = some f) ∧
      (Record.field a' name).reread = (Record.field a name).reread ∧
      (Record.field b' name).reread = (Record.field b name).reread := fun name hname =>
    ⟨exists_fieldNamed?_of_mem_keyNames hname, h.reread_key hname, h'.reread_key hname⟩
  generalize e.keyNames = names at hnames
  induction names with
  | nil => rfl
  | cons name names ih =>
      obtain ⟨⟨⟨f, hf⟩, hreread, hreread'⟩, hrest⟩ := List.forall_mem_cons.mp hnames
      have hholds := ha.field hf
      have hholds' := hb.field hf
      obtain ⟨hequals, hcompare⟩ := Field.compared_congr hholds (ha'.field hf) hholds'
        (hb'.field hf) hreread hreread'
      simp only [List.map_cons]
      rw [Value.compareItems, Value.compareItems, Field.not_refusesEquality hholds hholds',
        Field.not_refusesEquality (ha'.field hf) (hb'.field hf), hequals, hcompare, ih hrest]

/-- A record that is brought to the form of the fields once more shows the same. -/
theorem coerce_showsAs (hr : e.Formed r) (h : e.coerce r = .ok s)
    (hreturns : ∀ f ∈ e.fields, (Record.field r f.name).Returns) :
    e.ShowsAs r s ∧ ∀ f ∈ e.fields, (Record.field s f.name).Returns := by
  refine forall₂_and.mp fun f hf => ?_
  obtain ⟨g, hg⟩ := exists_fieldNamed?_of_mem (List.mem_map_of_mem (f := (·.name)) hf)
  have hr' := hr.field hg
  have hreturns' := hreturns f hf
  rw [Record.field] at hr' hreturns' ⊢
  rw [Record.field]
  rcases field?_coerceEntries h f.name with ⟨hnone, hnone'⟩ | ⟨v, w, hv, hw, hcoerce⟩
  · rw [hnone, hnone']
    exact ⟨rfl, .null⟩
  · rw [hv] at hr' hreturns'
    rw [hv, hw]
    rw [hg] at hcoerce
    exact Field.coerce_returns hr' hreturns' hcoerce

end Entity

/-! ## Scans -/

namespace File

variable {f g : File} {sub : Record → Record} {scan : List Record}

/-- Putting records in the place of others that show the same does not change the order of a scan. -/
theorem scan_map (hentity : g.entity = f.entity) (hrecords : g.records = f.records.map sub)
    (hf : ∀ r ∈ f.records, f.entity.Formed r) (hg : ∀ r ∈ g.records, g.entity.Formed r)
    (hordered : f.Ordered) (h : ∀ r ∈ f.records, f.entity.ShowsAs r (sub r))
    (hscan : f.scan = .ok scan) : g.Ordered ∧ g.scan = .ok (scan.map sub) := by
  have hsub : ∀ r ∈ f.records, f.entity.Formed (sub r) := fun r hr =>
    hentity ▸ hg (sub r) (hrecords ▸ List.mem_map_of_mem hr)
  have hbefore : ∀ a ∈ f.records, ∀ b ∈ f.records,
      g.isBefore (sub a) (sub b) = f.isBefore a b := by
    intro a ha b hb
    have hcompare := Entity.ShowsAs.compareItems_keyOf (hf a ha) (hsub a ha) (hf b hb) (hsub b hb)
      (h a ha) (h b hb)
    rw [isBefore, isBefore, keyOf, keyOf, keyOf, keyOf, hentity, hcompare]
  have hg' : g.Ordered := by
    intro a b ha hb
    rw [hrecords] at ha hb
    obtain ⟨r, hr, rfl⟩ := List.mem_map.mp ha
    obtain ⟨s, hs, rfl⟩ := List.mem_map.mp hb
    rw [hbefore r hr s hs]
    exact hordered r s hr hs
  -- both files sort, and a sort that answers is an insertion sort, which commutes with `sub`
  obtain ⟨scan', hscan', -⟩ := Sort.sure_sortBy hg' fun r hr => hr
  refine ⟨hg', ?_⟩
  have hinsertion := Sort.insertion_of_sortBy hscan'
  rw [hrecords, Sort.insertion_map hbefore, Sort.insertion_of_sortBy hscan] at hinsertion
  cases hinsertion
  exact hscan'

end File

end Rowgate
