import Rowgate.Proofs.Entity.Form
import Rowgate.Proofs.Value.Respelling

/-!
# The form that a field prescribes

A value may be of any kind before it belongs to a field, and is of the kind that the field prescribes
afterwards: `Field.Prescribes` has one constructor for each kind of field, and two for numbers, which are
integers where the scale is zero and the number is integral, and finite decimals otherwise. So values that
are equal, whatever they were made of, are of one kind (`Prescribes.sameKind`).

A truth value is the exception. It becomes the integer zero or one before anyone asks for the scale, so a
field of decimals holds an integer where it was sent a truth value, beside the decimal one where it was sent
the number (`truth_value_without_scale`).
-/

namespace Rowgate

/-- The values other than null in the form that a field prescribes. -/
inductive Field.Prescribes (f : Field) : Value → Prop
  | str (hk : f.kind = .string) (s : String) : Prescribes f (.str s)
  | date (hk : f.kind = .date) (d : Date) : Prescribes f (.date d)
  | dateTime (hk : f.kind = .dateTime) (t : DateTime) : Prescribes f (.dateTime t)
  | time (hk : f.kind = .time) (t : Time) : Prescribes f (.time t)
  | bytes (hk : f.kind = .byteArray) (octets : List UInt8) : Prescribes f (.bytes octets)
  | int (hk : f.kind = .numeric) (hs : f.scale = 0) (i : Int) : Prescribes f (.int i)
  | decimal (hk : f.kind = .numeric) {n : Bool} {c : Nat} {e : Int}
      (h : f.scale = 0 → ¬ ∃ i : ℤ, Decimal.signed n c e = i) :
      Prescribes f (.decimal (.finite n c e))

namespace Value

/-- The decimal that a value is read as where a number is asked for: a truth value is 0 or 1, a floating
point number is what its shortest text says, and a text is what it says. -/
def numeral? : Value → Option Decimal
  | .bool b => some (.ofInt (if b then 1 else 0))
  | .int i => some (.ofInt i)
  | .decimal d => some d
  | .float f => Decimal.ofText? f.text
  | .str s => Decimal.ofText? s
  | _ => none

/-- Whether two values are of one kind. -/
def sameKind : Value → Value → Bool
  | .str _, .str _ => true
  | .date _, .date _ => true
  | .dateTime _, .dateTime _ => true
  | .time _, .time _ => true
  | .bytes _, .bytes _ => true
  | .int _, .int _ => true
  | .decimal _, .decimal _ => true
  | _, _ => false

end Value

theorem Fits.sameKind {k : FieldKind} {v w : Value} (hv : Fits k v) (hw : Fits k w)
    (hk : k ≠ .numeric) : v.sameKind w = true := by
  cases hv <;> first | exact absurd rfl hk | (cases hw; rfl)

namespace Field

variable {f : Field} {v w x : Value}

namespace Prescribes

theorem fits (h : f.Prescribes v) : Fits f.kind v := by
  cases h with
  | str hk s => exact hk ▸ .str s
  | date hk d => exact hk ▸ .date d
  | dateTime hk t => exact hk ▸ .dateTime t
  | time hk t => exact hk ▸ .time t
  | bytes hk octets => exact hk ▸ .bytes octets
  | int hk hs i => exact hk ▸ .int i
  | decimal hk h => exact hk ▸ .decimal _ _ _

/-- A number in the form of its field stays as it is. -/
theorem toNumber_eq (h : f.Prescribes v) (hk : f.kind = .numeric) : toNumber f.scale v = .ok v := by
  cases h with
  | int _ hs i => rw [toNumber, if_pos hs]
  | @decimal _ n c e hint =>
      -- integral decimals do not have the form of a field without a scale
      have hnot : ¬ (f.scale = 0 ∧ (Decimal.finite n c e).isIntegral = true) := fun h =>
        hint h.1 (Decimal.isIntegral_iff.mp h.2)
      rw [toNumber, numberOfDecimal, if_neg hnot]
  | _ hk' => rw [hk] at hk'; cases hk'

/-- An integer and a decimal that one field prescribes stand for different numbers. -/
theorem datum?_ne {i : Int} {d : Decimal} (hi : f.Prescribes (.int i)) (hd : f.Prescribes (.decimal d)) :
    (Value.int i).datum? ≠ (Value.decimal d).datum? := by
  intro heq
  cases hi with
  | int hk hs i =>
      cases hd with
      | decimal hk h => exact h hs ⟨i, (Datum.number.inj (Option.some_inj.mp heq)).symm⟩

/-- Values in the form of a field that are equal are of one kind. -/
theorem sameKind (hv : f.Prescribes v) (hw : f.Prescribes w) (h : v.equals w = true) :
    v.sameKind w = true := by
  by_cases hk : f.kind = .numeric
  · have hfits := hv.fits
    have hfits' := hw.fits
    rw [hk] at hfits hfits'
    obtain ⟨p, q, hp, hq, -, hsame, -⟩ := hfits.numbers hfits'
    have hequals : v.equals w = v.sameNumber w := by cases hfits <;> rfl
    rw [hequals, hsame, beq_iff_eq, cmp_eq_eq_iff] at h
    have hdatum : v.datum? = w.datum? := by rw [hp, hq, h]
    cases hfits <;> cases hfits'
    case int.int => rfl
    case int.decimal => exact absurd hdatum (datum?_ne hv hw)
    case decimal.int => exact absurd hdatum.symm (datum?_ne hw hv)
    case decimal.decimal => rfl
  · exact hv.fits.sameKind hw.fits hk

end Prescribes

/-! ## Numbers -/

/-- A finite decimal becomes the number that a field prescribes, and stands for what it stood for. -/
theorem prescribes_numberOfDecimal (hk : f.kind = .numeric) {d : Decimal}
    (h : numberOfDecimal x f.scale d = .ok v) :
    f.Prescribes v ∧ ∃ q, d.rational? = some q ∧ v.datum? = some (.number q) := by
  cases d with
  | infinite n => cases h
  | nan n s p => cases h
  | finite n c e =>
      rw [numberOfDecimal] at h
      split at h
      · next hwhole =>
          cases h
          refine ⟨.int hk hwhole.1 _, _, rfl, ?_⟩
          rw [Value.datum?, Decimal.truncate_of_isIntegral hwhole.2]
      · next hnot =>
          cases h
          exact ⟨.decimal hk fun hs hint => hnot ⟨hs, Decimal.isIntegral_iff.mpr hint⟩, _, rfl, rfl⟩

/-- What is no truth value becomes what becomes of the decimal that it is read as. -/
theorem toNumber_eq (hx : ∀ b, x ≠ .bool b) (scale : Int) :
    toNumber scale x = x.numeral?.elim (.error (.notNumber x)) (numberOfDecimal x scale) := by
  cases x with
  | bool b => exact absurd rfl (hx b)
  | int i =>
      have hwhole : (Decimal.finite (decide (i < 0)) i.natAbs 0).isIntegral = true := rfl
      rw [toNumber, Value.numeral?, Option.elim_some, Decimal.ofInt, numberOfDecimal,
        Decimal.truncate_ofInt]
      simp only [hwhole, and_true]
      split <;> rfl
  | float g =>
      rw [toNumber, Value.numeral?]
      cases Decimal.ofText? g.text <;> rfl
  | str s =>
      rw [toNumber, Value.numeral?]
      cases Decimal.ofText? s <;> rfl
  | _ => rfl

/-- What becomes of a value where a number is asked for stands for the number that the value is read as,
and has the form that the field prescribes unless the value is a truth value. -/
theorem prescribes_toNumber (hk : f.kind = .numeric) (h : toNumber f.scale x = .ok v) :
    (f.Prescribes v ∨ f.scale ≠ 0 ∧ ∃ b, x = .bool b ∧ v = .int (if b then 1 else 0)) ∧
      ∃ d q, x.numeral? = some d ∧ d.rational? = some q ∧ v.datum? = some (.number q) := by
  by_cases hx : ∃ b, x = .bool b
  · obtain ⟨b, rfl⟩ := hx
    cases h
    refine ⟨?_, _, _, rfl, Decimal.rational?_ofInt _, rfl⟩
    by_cases hs : f.scale = 0
    · exact .inl (.int hk hs _)
    · exact .inr ⟨hs, b, rfl, rfl⟩
  · rw [toNumber_eq fun b hb => hx ⟨b, hb⟩] at h
    cases hd : x.numeral? with
    | none =>
        rw [hd] at h
        cases h
    | some d =>
        rw [hd] at h
        obtain ⟨hprescribes, q, hq, hv⟩ := prescribes_numberOfDecimal hk h
        exact ⟨.inl hprescribes, d, q, rfl, hq, hv⟩

/-- A field gives a value other than null the form that it prescribes; only of a truth value it makes an
integer whatever its scale is. A number stands for what it was read as. If truth values are
left out, values that a field makes and that are equal are of one kind. -/
theorem gives_prescribed {x v : Value} (hx : x.isNull = false) (h : f.coerce x = .ok v) :
    (f.Prescribes v ∨ f.kind = .numeric ∧ f.scale ≠ 0 ∧
      ∃ b, x = .bool b ∧ v = .int (if b then 1 else 0)) ∧
    (f.kind = .numeric →
      ∃ d q, x.numeral? = some d ∧ d.rational? = some q ∧ v.datum? = some (.number q)) ∧
    ∀ y w, y.isNull = false → f.coerce y = .ok w → (∀ b, x ≠ .bool b ∧ y ≠ .bool b) →
      v.equals w = true → v.sameKind w = true := by
  have hform : ∀ {y w}, y.isNull = false → f.coerce y = .ok w →
      f.Prescribes w ∨ f.kind = .numeric ∧ f.scale ≠ 0 ∧
        ∃ b, y = .bool b ∧ w = .int (if b then 1 else 0) := by
    intro y w hy hw
    rw [coerce_of_not_null hy, coerceSome] at hw
    cases hk : f.kind <;> rw [hk] at hw
    case numeric => exact (prescribes_toNumber hk hw).1.imp_right fun htruth => ⟨rfl, htruth⟩
    all_goals
      obtain ⟨a, -, rfl⟩ := map_eq_ok hw
      exact .inl (by constructor; exact hk)
  have hprescribed : ∀ {y w}, y.isNull = false → f.coerce y = .ok w → (∀ b, y ≠ .bool b) →
      f.Prescribes w := by
    intro y w hy hw htruth
    rcases hform hy hw with hw | ⟨-, -, b, hb, -⟩
    · exact hw
    · exact absurd hb (htruth b)
  refine ⟨hform hx h, fun hk => ?_, fun y w hy hw htruth => ?_⟩
  · rw [coerce_of_not_null hx, coerceSome, hk] at h
    exact (prescribes_toNumber hk h).2
  · exact (hprescribed hx h fun b => (htruth b).1).sameKind
      (hprescribed hy hw fun b => (htruth b).2)

/-- A field of numbers with three digits after the point. -/
def fineWeight : Field := ⟨"Weight", none, 10, 3, .numeric, false, false, false⟩

theorem gives_prescribed_fineWeight :
    (Value.str " 2.50 ").isNull = false ∧
      fineWeight.coerce (.str " 2.50 ") = .ok (.decimal (.finite false 250 (-2))) ∧
      fineWeight.Prescribes (.decimal (.finite false 250 (-2))) := by
  have hx : (Value.str " 2.50 ").isNull = false := rfl
  have h : fineWeight.coerce (.str " 2.50 ") = .ok (.decimal (.finite false 250 (-2))) := by
    rfl
  exact ⟨hx, h, (gives_prescribed hx h).1.resolve_right fun ⟨_, _, _, htext, _⟩ => nomatch htext⟩

/-- A field of decimals makes an integer of a truth value, though it makes a decimal of the integer. -/
theorem truth_value_without_scale :
    fineWeight.scale ≠ 0 ∧ fineWeight.coerce (.bool true) = .ok (.int 1) ∧
      ¬ fineWeight.Prescribes (.int 1) ∧
      fineWeight.coerce (.int 1) = .ok (.decimal (.finite false 1 0)) := by
  refine ⟨by decide, rfl, fun h => ?_, rfl⟩
  cases h with
  | int hk hs i => cases hs

end Field

end Rowgate
