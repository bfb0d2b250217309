import Rowgate.Proofs.Store.KeyOrder
import Rowgate.Proofs.Store.Same

/-!
# Keys that are looked up

A file takes two keys for the same if they are equal and no time of day tells them apart: equality
does not look at the fraction of a second of an offset, but a dictionary does (`Value.Coincide`).

The keys of records have the form of fields, the keys that are looked up can be anything. Still,
whatever is the same as the value of a field stands for the same (`Field.datum?_of_sameInKey`), so
being the same goes over from one key to another as soon as the key of a record is among them
(`Value.sameKey_of_sameKey`), and such a key can always be looked up.
-/

namespace Rowgate

namespace Value

variable {v w : Value}

/-! ## Equality -/

/-- Whether two values are times of day whose offsets have different fractions of a second. -/
def OffsetsDiffer : Value → Value → Prop
  | .time t, .time u => t.offset.map Offset.fraction ≠ u.offset.map Offset.fraction
  | _, _ => False

/-- Whether two keys have such times of day at one place. -/
def ToldApart (a b : List Value) : Prop := ∃ p ∈ a.zip b, OffsetsDiffer p.1 p.2

/-- Whether two keys are equal and are not told apart. -/
def Coincide (a b : List Value) : Prop := equalItems a b = true ∧ ¬ ToldApart a b

theorem sameInKey_iff_equals :
    v.sameInKey w = true ↔ v.equals w = true ∧ ¬ OffsetsDiffer v w := by
  by_cases htimes : ∃ t u, v = .time t ∧ w = .time u
  · obtain ⟨t, u, rfl, rfl⟩ := htimes
    rw [sameInKey, Time.coincides, Bool.and_eq_true, equals, OffsetsDiffer, not_not, beq_iff_eq,
      beq_iff_eq]
  · have hdiffer : ¬ OffsetsDiffer v w := by
      rw [OffsetsDiffer.eq_def]
      split
      · next t u => exact absurd ⟨t, u, rfl, rfl⟩ htimes
      · exact id
    have hsame : v.sameInKey w = v.equals w := by
      rw [sameInKey.eq_def]
      split
      · next t u => exact absurd ⟨t, u, rfl, rfl⟩ htimes
      · rfl
    rw [hsame, and_iff_left hdiffer]

theorem sameKey_iff (a b : List Value) : sameKey a b = true ↔ Coincide a b := by
  rw [Coincide]
  induction a generalizing b with
  | nil => simp [sameKey, equalItems, ToldApart]
  | cons v vs ih =>
      cases b with
      | nil => simp [sameKey, equalItems]
      | cons w ws =>
          have hapart : ToldApart (v :: vs) (w :: ws) ↔ OffsetsDiffer v w ∨ ToldApart vs ws := by
            rw [ToldApart, List.zip_cons_cons, List.exists_mem_cons_iff]
            rfl
          rw [sameKey, equalItems, Bool.and_eq_true, Bool.and_eq_true, ih, sameInKey_iff_equals,
            hapart, not_or]
          exact and_and_and_comm

/-! ## Numbers

A number that is looked up may be of any kind, also one that no field has. -/

theorem datum?_of_number? {d : Decimal} (h : v.number? = some d) :
    v.datum? = d.rational?.map .number := by
  cases v with
  | bool b =>
      cases h
      rw [Decimal.rational?_ofInt]
      cases b <;> rfl
  | int i =>
      cases h
      rw [Decimal.rational?_ofInt]
      rfl
  | decimal d =>
      cases h
      rfl
  | float f =>
      cases h
      rfl
  | _ => cases h

theorem datum?_ne_number (h : v.number? = none) (q : ℚ) : v.datum? ≠ some (.number q) := by
  cases v with
  | bool b => cases h
  | int i => cases h
  | decimal d => cases h
  | float f => cases h
  | dateTime t => cases ht : t.offset <;> simp [datum?, ht]
  | time t => cases ht : t.offset <;> simp [datum?, ht]
  | _ => simp [datum?]

/-- A value that stands for a number is the same in a key as just those that stand for it, too. -/
theorem sameInKey_number_iff {q : ℚ} (hv : v.datum? = some (.number q)) :
    v.sameInKey w = true ↔ w.datum? = some (.number q) := by
  cases ha : v.number? with
  | none => exact absurd hv (datum?_ne_number ha q)
  | some a =>
      have hsame : v.sameInKey w = v.sameNumber w := by
        cases v with
        | bool b => cases w <;> rfl
        | int i => cases w <;> rfl
        | decimal d => cases w <;> rfl
        | float f => cases w <;> rfl
        | _ => cases ha
      rw [datum?_of_number? ha] at hv
      obtain ⟨p, hp, hpq⟩ := Option.map_eq_some_iff.mp hv
      cases hpq
      rw [hsame, sameNumber, ha]
      cases hb : w.number? with
      | none => exact iff_of_false Bool.false_ne_true (datum?_ne_number hb q)
      | some b =>
          rw [datum?_of_number? hb, beq_iff_eq, Decimal.compareValue_eq_iff hp]
          cases b.rational? <;> simp

theorem canBeKey_of_datum? {a : Datum} (h : v.datum? = some a) : File.canBeKey v = true := by
  cases v with
  | list vs => cases h
  | dict es => cases h
  | decimal d =>
      cases d with
      | nan n s p => cases h
      | _ => rfl
  | _ => rfl

end Value

/-! ## Values of fields -/

namespace Fits

variable {k : FieldKind} {u v w : Value}

/-- Beside numbers, only values in the same form are the same in a key. -/
theorem fits_of_sameInKey (hu : Fits k u) (hk : k ≠ .numeric) (h : u.sameInKey v = true) :
    Fits k v := by
  cases hu with
  | int i => exact absurd rfl hk
  | decimal n c e => exact absurd rfl hk
  | str s => cases v <;> first | constructor | cases h
  | date d => cases v <;> first | constructor | cases h
  | dateTime t => cases v <;> first | constructor | cases h
  | time t => cases v <;> first | constructor | cases h
  | bytes octets => cases v <;> first | constructor | cases h

theorem datum?_of_sameInKey (hu : Fits k u) (h : u.sameInKey v = true) : v.datum? = u.datum? := by
  by_cases hk : k = .numeric
  · subst hk
    obtain ⟨-, q, -, -, -, hq⟩ := hu.exists_rational
    rw [hq, (Value.sameInKey_number_iff hq).mp h]
  · exact ((sameInKey_iff hu (hu.fits_of_sameInKey hk h)).mp h).symm

theorem sameInKey_of_sameInKey (hu : Fits k u) (hv : u.sameInKey v = true)
    (hw : u.sameInKey w = true) : v.sameInKey w = true := by
  have hdatum := (hu.datum?_of_sameInKey hv).trans (hu.datum?_of_sameInKey hw).symm
  by_cases hk : k = .numeric
  · subst hk
    obtain ⟨-, q, -, -, -, hq⟩ := hu.exists_rational
    have hvq := (hu.datum?_of_sameInKey hv).trans hq
    exact (Value.sameInKey_number_iff hvq).mpr (hdatum.symm.trans hvq)
  · exact (sameInKey_iff (hu.fits_of_sameInKey hk hv) (hu.fits_of_sameInKey hk hw)).mpr hdatum

end Fits

namespace Field

variable {f : Field} {u v w : Value}

/-- Whatever is the same as a value of a field stands for the same. -/
theorem datum?_of_sameInKey (hu : f.Holds u) (h : u.sameInKey v = true) : v.datum? = u.datum? := by
  rcases hu with rfl | hu
  · rw [Value.eq_null_of_isNull h]
  · exact hu.datum?_of_sameInKey h

/-- Values that are the same as one value of a field are the same. -/
theorem sameInKey_of_sameInKey (hu : f.Holds u) (hv : u.sameInKey v = true)
    (hw : u.sameInKey w = true) : v.sameInKey w = true := by
  rcases hu with rfl | hu
  · rw [Value.eq_null_of_isNull hv, Value.eq_null_of_isNull hw]
    rfl
  · exact hu.sameInKey_of_sameInKey hv hw

theorem canBeKey_of_sameInKey (hu : f.Holds u) (h : u.sameInKey v = true) :
    File.canBeKey v = true := by
  rcases hu with rfl | hu
  · rw [Value.eq_null_of_isNull h]
    rfl
  · obtain ⟨a, ha⟩ := hu.exists_datum
    exact Value.canBeKey_of_datum? ((hu.datum?_of_sameInKey h).trans ha)

end Field

/-! ## Keys of records -/

namespace Value

variable {a b c : List Value}

/-- Whether every value of a key has the form of some field. -/
def KeyFormed (key : List Value) : Prop := ∀ v ∈ key, ∃ f : Field, f.Holds v

theorem sameKey_self (ha : KeyFormed a) : sameKey a a = true := by
  induction a with
  | nil => rfl
  | cons v vs ih =>
      obtain ⟨⟨f, hv⟩, hvs⟩ := List.forall_mem_cons.mp ha
      rw [sameKey, hv.same.sameInKey, ih hvs]
      rfl

/-- Whether a value has the form of a field and another value is the same in a key. -/
def LookedUpAs (v w : Value) : Prop := ∃ f : Field, f.Holds v ∧ v.sameInKey w = true

theorem forall₂_of_sameKey (ha : KeyFormed a) (h : sameKey a b = true) :
    List.Forall₂ LookedUpAs a b := by
  induction a generalizing b with
  | nil =>
      cases b with
      | nil => exact .nil
      | cons => cases h
  | cons v vs ih =>
      obtain ⟨⟨f, hv⟩, hvs⟩ := List.forall_mem_cons.mp ha
      cases b with
      | nil => cases h
      | cons w ws =>
          rw [sameKey, Bool.and_eq_true] at h
          exact .cons ⟨f, hv, h.1⟩ (ih hvs h.2)

theorem map_datum?_of_sameKey (ha : KeyFormed a) (h : sameKey a b = true) :
    b.map datum? = a.map datum? := by
  have hvalues := forall₂_of_sameKey ha h
  clear ha h
  induction hvalues with
  | nil => rfl
  | cons hvw _ ih =>
      obtain ⟨f, hv, hsame⟩ := hvw
      rw [List.map_cons, List.map_cons, Field.datum?_of_sameInKey hv hsame, ih]

theorem all_canBeKey_of_sameKey (ha : KeyFormed a) (h : sameKey a b = true) :
    b.all File.canBeKey = true := by
  have hvalues := forall₂_of_sameKey ha h
  clear ha h
  induction hvalues with
  | nil => rfl
  | cons hvw _ ih =>
      obtain ⟨f, hv, hsame⟩ := hvw
      rw [List.all_cons, Field.canBeKey_of_sameInKey hv hsame, ih]
      rfl

/-- Keys that are the same as the key of one record are the same. -/
theorem sameKey_of_sameKey (ha : KeyFormed a) (hb : sameKey a b = true) (hc : sameKey a c = true) :
    sameKey b c = true := by
  have hvalues := forall₂_of_sameKey ha hb
  clear ha hb
  induction hvalues generalizing c with
  | nil => exact hc
  | cons hvw _ ih =>
      obtain ⟨f, hv, hsame⟩ := hvw
      cases c with
      | nil => cases hc
      | cons x xs =>
          rw [sameKey, Bool.and_eq_true] at hc ⊢
          exact ⟨Field.sameInKey_of_sameInKey hv hsame hc.1, ih hc.2⟩

/-- Keys of records that are the same are the same as the same keys. -/
theorem sameKey_congr (ha : KeyFormed a) (hb : KeyFormed b) (h : sameKey a b = true)
    (key : List Value) : sameKey a key = sameKey b key := by
  have hsymm : sameKey b a = true := sameKey_of_sameKey ha h (sameKey_self ha)
  rw [Bool.eq_iff_iff]
  exact ⟨sameKey_of_sameKey ha h, sameKey_of_sameKey hb hsymm⟩

end Value

namespace Entity

variable {e : Entity} {r s : Record}

theorem keyFormed_keyOf (hr : e.Formed r) : Value.KeyFormed (e.keyOf r) := by
  intro v hv
  obtain ⟨name, hname, rfl⟩ := List.mem_map.mp hv
  obtain ⟨f, hf⟩ := exists_fieldNamed?_of_mem_keyNames hname
  exact ⟨f, hr.field hf⟩

/-- Keys with the same ranks are equal. -/
theorem equalItems_of_keyRank (hr : e.Formed r) (hs : e.Formed s) (h : e.keyRank r = e.keyRank s) :
    Value.equalItems (e.keyOf r) (e.keyOf s) = true := by
  rw [keyRank, keyRank] at h
  rw [keyOf, keyOf] at h ⊢
  have hnames : ∀ name ∈ e.keyNames, ∃ f, fieldNamed? e.fields name = some f :=
    fun _ h => exists_fieldNamed?_of_mem_keyNames h
  generalize e.keyNames = names at h hnames ⊢
  induction names with
  | nil => rfl
  | cons name names ih =>
      obtain ⟨⟨f, hf⟩, hrest⟩ := List.forall_mem_cons.mp hnames
      obtain ⟨hrank, hranks⟩ := List.cons.inj h
      have hequal := (Field.ranked (hr.field hf) (hs.field hf)).1.mpr (linearly_eq_iff.mpr hrank)
      rw [List.map_cons, List.map_cons, Value.equalItems, hequal, ih hranks hrest]
      rfl

end Entity

end Rowgate
