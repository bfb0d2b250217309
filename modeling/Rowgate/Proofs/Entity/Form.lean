import Rowgate.Entity.Coerce
import Rowgate.Proofs.Value.Datum

/-!
# The form of a field

`Fits k v` says that a value other than null has the one form that fields of the kind `k` prescribe.
Bringing a value to the form of a field gives a value that fits, and a value that fits can always be
brought to the form once more, which may spell a number in another way but leaves what it stands
for. So it does not matter how often a value passes through a field.

Values that fit one kind are compared as the data they stand for; the only pair without an order is
a moment of local time beside one of universal time.
-/

namespace Rowgate

/-- The values other than null that have the form of a kind. -/
inductive Fits : FieldKind → Value → Prop
  | str (s : String) : Fits .string (.str s)
  | int (i : Int) : Fits .numeric (.int i)
  | decimal (n : Bool) (c : Nat) (e : Int) : Fits .numeric (.decimal (.finite n c e))
  | date (d : Date) : Fits .date (.date d)
  | dateTime (t : DateTime) : Fits .dateTime (.dateTime t)
  | time (t : Time) : Fits .time (.time t)
  | bytes (octets : List UInt8) : Fits .byteArray (.bytes octets)

namespace Fits

variable {k : FieldKind} {v w : Value}

theorem not_null (h : Fits k v) : v.isNull = false := by cases h <;> rfl

theorem exists_datum (h : Fits k v) : ∃ a, v.datum? = some a := by
  cases h <;> exact ⟨_, rfl⟩

theorem exists_rational (h : Fits .numeric v) :
    ∃ d p, v.number? = some d ∧ d.rational? = some p ∧ d.isSignaling = false ∧
      v.datum? = some (.number p) := by
  cases h with
  | int i => exact ⟨.ofInt i, i, rfl, Decimal.rational?_ofInt i, rfl, rfl⟩
  | decimal n c e => exact ⟨.finite n c e, Decimal.signed n c e, rfl, rfl, rfl, rfl⟩

/-! ## Comparison -/

theorem compareNumbers_eq {a b : Decimal} {o : Ordering} (hv : v.number? = some a)
    (hw : w.number? = some b) (h : a.compareValue b = some o) :
    v.compareNumbers w = .ok (some o) := by
  simp only [Value.compareNumbers, hv, hw, h]

theorem numbers (hv : Fits .numeric v) (hw : Fits .numeric w) :
    ∃ p q, v.datum? = some (.number p) ∧ w.datum? = some (.number q) ∧
      v.compareNumbers w = .ok (some (cmp p q)) ∧ v.sameNumber w = (cmp p q == .eq) ∧
      v.numbersRefuse w = false := by
  obtain ⟨a, p, hna, hp, hsa, hda⟩ := hv.exists_rational
  obtain ⟨b, q, hnb, hq, hsb, hdb⟩ := hw.exists_rational
  have hcmp := Decimal.compareValue_of_rational hp hq
  refine ⟨p, q, hda, hdb, ?_, ?_, ?_⟩
  · exact compareNumbers_eq hna hnb hcmp
  · rw [Value.sameNumber, hna, hnb]
    exact congrArg (· == some Ordering.eq) hcmp
  · simp only [Value.numbersRefuse, hna, hnb, hsa, hsb, Bool.or_self]

/-- Values that fit a kind can be told to be equal or not. -/
theorem not_refusesEquality (hv : Fits k v) (hw : Fits k w) : v.refusesEquality w = false := by
  cases hv with
  | int i =>
      obtain ⟨p, q, _, _, _, _, h⟩ := numbers (.int i) hw
      exact h
  | decimal n c e =>
      obtain ⟨p, q, _, _, _, _, h⟩ := numbers (.decimal n c e) hw
      exact h
  | _ => rfl

/-- What it means that two values are compared as the data that they stand for. -/
def ComparedAs (v w : Value) (a b : Datum) : Prop :=
  v.datum? = some a ∧ w.datum? = some b ∧
    (v.equals w = true ↔ a.order? b = some .eq) ∧
    v.compare w = (a.order? b).elim (.error .unlike) fun o => .ok (some o)

theorem comparedAs_numbers (hv : Fits .numeric v) (hw : Fits .numeric w) :
    ∃ a b, ComparedAs v w a b := by
  obtain ⟨p, q, hp, hq, hcmp, hsame, _⟩ := numbers hv hw
  refine ⟨.number p, .number q, hp, hq, ?_, ?_⟩
  · have heq : v.equals w = v.sameNumber w := by cases hv <;> rfl
    rw [heq, hsame, beq_iff_eq]
    exact (Option.some_inj).symm
  · have heq : v.compare w = v.compareNumbers w := by cases hv <;> rfl
    rw [heq, hcmp]
    rfl

/-- Values that fit a kind, the first one no moment of universal time, are compared as data. -/
theorem comparedAs (hv : Fits k v) (hw : Fits k w) (hl : v.isLocal = true) :
    ∃ a b, ComparedAs v w a b := by
  cases hv with
  | int i => exact comparedAs_numbers (.int i) hw
  | decimal n c e => exact comparedAs_numbers (.decimal n c e) hw
  | str s =>
      cases hw with
      | str t =>
          refine ⟨_, _, rfl, rfl, ?_, ?_⟩
          · rw [Value.equals, beq_iff_eq, Datum.order?, Option.some_inj, linearly_eq_iff,
              Text.codes_inj, String.toList_inj]
          · rw [Value.compare, Value.compareText, Text.compareCodes_eq_linearly]
            rfl
  | bytes a =>
      cases hw with
      | bytes b =>
          refine ⟨_, _, rfl, rfl, ?_, ?_⟩
          · rw [Value.equals, beq_iff_eq, Datum.order?, Option.some_inj, linearly_eq_iff]
            exact (List.map_inj_right fun _ _ h => UInt8.toNat_inj.mp h).symm
          · rw [Value.compare, Value.compareOctets_eq_linearly]
            rfl
  | date a =>
      cases hw with
      | date b =>
          refine ⟨_, _, rfl, rfl, ?_, ?_⟩
          · rw [Value.equals, beq_iff_eq, Datum.order?, Option.some_inj, linearly_eq_iff]
            exact ⟨congrArg Date.ordinal, Date.ordinal_injective⟩
          · rw [Value.compare, Date.compare, Datum.order?, linearly_eq_compare]
            rfl
  | dateTime a =>
      cases hw with
      | dateTime b =>
          have ha : a.offset.isSome = false := by simpa [Value.isLocal] using hl
          refine ⟨.localMoment a.moment, _, by rw [Value.datum?, ha]; rfl, rfl, ?_, ?_⟩
          · rw [Value.equals, beq_iff_eq, DateTime.compare?, ha]
            cases b.offset.isSome <;> simp [Datum.order?, linearly_eq_compare]
          · rw [Value.compare, DateTime.compare?, ha]
            cases b.offset.isSome <;>
              simp [Datum.order?, linearly_eq_compare, Value.compareMoments]
  | time a =>
      cases hw with
      | time b =>
          have ha : a.offset = none := by simpa [Value.isLocal] using hl
          refine ⟨.localTime a.moment, _, by rw [Value.datum?, ha], rfl, ?_, ?_⟩
          · rw [Value.equals, beq_iff_eq, Time.compare?, ha]
            cases b.offset <;> simp [Datum.order?, linearly_eq_compare]
          · rw [Value.compare, Time.compare?, ha]
            cases b.offset <;>
              simp [Datum.order?, linearly_eq_compare, Value.compareMoments]

/-- Values that fit a kind are the same in a key exactly if they stand for the same datum. -/
theorem sameInKey_iff (hv : Fits k v) (hw : Fits k w) :
    v.sameInKey w = true ↔ v.datum? = w.datum? := by
  cases hv with
  | int i =>
      obtain ⟨p, q, hp, hq, _, hsame, _⟩ := numbers (.int i) hw
      rw [hp, hq, Option.some_inj, Datum.number.injEq, ← cmp_eq_eq_iff p q]
      have heq : (Value.int i).sameInKey w = (Value.int i).sameNumber w := by cases hw <;> rfl
      rw [heq, hsame, beq_iff_eq]
  | decimal n c e =>
      obtain ⟨p, q, hp, hq, _, hsame, _⟩ := numbers (.decimal n c e) hw
      rw [hp, hq, Option.some_inj, Datum.number.injEq, ← cmp_eq_eq_iff p q]
      have heq : (Value.decimal (.finite n c e)).sameInKey w =
          (Value.decimal (.finite n c e)).sameNumber w := by cases hw <;> rfl
      rw [heq, hsame, beq_iff_eq]
  | str s =>
      cases hw with
      | str t =>
          rw [Value.sameInKey, Value.equals, beq_iff_eq, Value.datum?, Value.datum?,
            Option.some_inj, Datum.text.injEq, Text.codes_inj, String.toList_inj]
          intro _ _ h
          cases h
  | bytes a =>
      cases hw with
      | bytes b =>
          rw [Value.sameInKey, Value.equals, beq_iff_eq, Value.datum?, Value.datum?,
            Option.some_inj, Datum.octets.injEq]
          · exact (List.map_inj_right fun _ _ h => UInt8.toNat_inj.mp h).symm
          · intro _ _ h
            cases h
  | date a =>
      cases hw with
      | date b =>
          rw [Value.sameInKey, Value.equals, beq_iff_eq, Value.datum?, Value.datum?,
            Option.some_inj, Datum.day.injEq]
          · exact ⟨congrArg Date.ordinal, Date.ordinal_injective⟩
          · intro _ _ h
            cases h
  | dateTime a =>
      cases hw with
      | dateTime b =>
          rw [Value.sameInKey, Value.equals, beq_iff_eq, Value.datum?, Value.datum?,
            Option.some_inj, DateTime.compare?]
          · cases a.offset.isSome <;> cases b.offset.isSome <;> simp
          · intro _ _ h
            cases h
  | time a =>
      cases hw with
      | time b =>
          rw [Value.sameInKey, Time.coincides, Time.compare?, Value.datum?, Value.datum?,
            Option.some_inj]
          cases a.offset <;> cases b.offset <;> simp

end Fits

/-! ## Coercion -/

theorem Value.eq_null_of_isNull {v : Value} (h : v.isNull = true) : v = .null := by
  cases v <;> first | rfl | cases h

theorem map_eq_ok {ε α β : Type} {x : Except ε α} {g : α → β} {b : β} (h : x.map g = .ok b) :
    ∃ a, x = .ok a ∧ g a = b := by
  cases x with
  | error e => cases h
  | ok a => exact ⟨a, rfl, Except.ok.inj h⟩

theorem numberOfDecimal_fits {v w : Value} {scale : Int} {d : Decimal}
    (h : numberOfDecimal v scale d = .ok w) : Fits .numeric w := by
  cases d with
  | infinite n => cases h
  | nan n s p => cases h
  | finite n c e =>
      rw [numberOfDecimal] at h
      split at h
      · cases h
        exact .int _
      · cases h
        exact .decimal n c e

theorem toNumber_fits {v w : Value} {scale : Int} (h : toNumber scale v = .ok w) :
    Fits .numeric w := by
  cases v with
  | bool b =>
      cases h
      exact .int _
  | int i =>
      rw [toNumber, Except.ok.injEq] at h
      split at h
      · subst h
        exact .int i
      · subst h
        exact .decimal _ _ _
  | decimal d => exact numberOfDecimal_fits h
  | float f =>
      rw [toNumber] at h
      split at h
      · exact numberOfDecimal_fits h
      · cases h
  | str s =>
      rw [toNumber] at h
      split at h
      · exact numberOfDecimal_fits h
      · cases h
  | _ => cases h

/-- A number that passes through a field once more is the same number. -/
theorem toNumber_of_fits {v : Value} (scale : Int) (h : Fits .numeric v) :
    ∃ w, toNumber scale v = .ok w ∧ w.datum? = v.datum? := by
  cases h with
  | int i =>
      refine ⟨_, rfl, ?_⟩
      split
      · rfl
      · show (Decimal.ofInt i).rational?.map Datum.number = some (.number i)
        rw [Decimal.rational?_ofInt]
        rfl
  | decimal n c e =>
      rw [toNumber, numberOfDecimal]
      split
      · next hi =>
          refine ⟨_, rfl, ?_⟩
          rw [Value.datum?, Decimal.truncate_of_isIntegral hi.2]
          rfl
      · exact ⟨_, rfl, rfl⟩

namespace Field

variable {f : Field} {v w : Value}

theorem coerceSome_fits (h : f.coerceSome v = .ok w) : Fits f.kind w := by
  rw [coerceSome] at h
  cases hk : f.kind <;> rw [hk] at h
  case numeric => exact toNumber_fits h
  all_goals
    obtain ⟨a, _, rfl⟩ := map_eq_ok h
    constructor

/-- A value that fits a field passes through it; only a number may be spelled in another way. -/
theorem coerceSome_of_fits (h : Fits f.kind v) :
    ∃ w, f.coerceSome v = .ok w ∧ Fits f.kind w ∧ w.datum? = v.datum? ∧
      (f.kind ≠ .numeric → w = v) := by
  cases hk : f.kind with
  | numeric =>
      rw [hk] at h
      obtain ⟨w, hw, hd⟩ := toNumber_of_fits f.scale h
      exact ⟨w, by rw [coerceSome, hk]; exact hw, toNumber_fits hw, hd, fun hn => absurd rfl hn⟩
  | _ =>
      rw [hk] at h
      cases h
      refine ⟨_, ?_, ?_, rfl, fun _ => rfl⟩
      · rw [coerceSome, hk]
        rfl
      · constructor

/-- The values that have the form of a field: null and those that fit its kind. -/
def Holds (f : Field) (v : Value) : Prop := v = .null ∨ Fits f.kind v

theorem coerce_holds (h : f.coerce v = .ok w) : f.Holds w := by
  rw [coerce] at h
  split at h
  · cases h
    exact Or.inl rfl
  · exact Or.inr (coerceSome_fits h)

theorem coerce_of_not_null (h : v.isNull = false) : f.coerce v = f.coerceSome v := by
  rw [coerce, if_neg (by rw [h]; decide)]

/-- A value that has the form of a field passes through it and keeps what it stands for. -/
theorem coerce_of_holds (h : f.Holds v) :
    ∃ w, f.coerce v = .ok w ∧ f.Holds w ∧ w.isNull = v.isNull ∧ w.datum? = v.datum? ∧
      (f.kind ≠ .numeric → w = v) := by
  rcases h with rfl | h
  · exact ⟨.null, rfl, Or.inl rfl, rfl, rfl, fun _ => rfl⟩
  · obtain ⟨w, hw, hfits, hd, he⟩ := coerceSome_of_fits h
    exact ⟨w, by rw [coerce_of_not_null h.not_null, hw], Or.inr hfits,
      by rw [hfits.not_null, h.not_null], hd, he⟩

end Field

theorem mem_of_fieldNamed? {fields : List Field} {name : String} {f : Field}
    (h : fieldNamed? fields name = some f) : f ∈ fields ∧ f.name = name :=
  ⟨List.mem_reverse.mp (List.mem_of_find?_eq_some h), by simpa using List.find?_some h⟩

namespace Entity

variable {e : Entity}

theorem exists_fieldNamed?_of_mem {name : String} (h : name ∈ e.fields.map (·.name)) :
    ∃ f, fieldNamed? e.fields name = some f := by
  obtain ⟨f, hf, rfl⟩ := List.mem_map.mp h
  refine Option.isSome_iff_exists.mp ?_
  rw [fieldNamed?, List.find?_isSome]
  exact ⟨f, List.mem_reverse.mpr hf, beq_self_eq_true _⟩

theorem exists_fieldNamed?_of_mem_keyNames {name : String} (h : name ∈ e.keyNames) :
    ∃ f, fieldNamed? e.fields name = some f := by
  obtain ⟨f, hf, rfl⟩ := List.mem_map.mp h
  exact exists_fieldNamed?_of_mem (List.mem_map_of_mem (List.mem_of_mem_filter hf))

end Entity

/-! ## Records -/

theorem coerceEntries_cons {fields : List Field} {name : String} {v : Value} {rest r : Record}
    (h : coerceEntries fields ((name, v) :: rest) = .ok r) :
    ∃ w rest', coerceFor (fieldNamed? fields name) v = .ok w ∧
      coerceEntries fields rest = .ok rest' ∧ r = (name, w) :: rest' := by
  rw [coerceEntries] at h
  cases hw : coerceFor (fieldNamed? fields name) v with
  | error e => rw [hw] at h; cases h
  | ok w =>
      cases hr : coerceEntries fields rest with
      | error e => rw [hw, hr] at h; cases h
      | ok rest' =>
          rw [hw, hr] at h
          exact ⟨w, rest', rfl, rfl, (Except.ok.inj h).symm⟩

/-- Coercion keeps the names of a record and brings the value of each to the form of its field. -/
theorem field?_coerceEntries {fields : List Field} {raw r : Record}
    (h : coerceEntries fields raw = .ok r) (name : String) :
    (Record.field? raw name = none ∧ Record.field? r name = none) ∨
      ∃ v w, Record.field? raw name = some v ∧ Record.field? r name = some w ∧
        coerceFor (fieldNamed? fields name) v = .ok w := by
  induction raw generalizing r with
  | nil =>
      cases h
      exact Or.inl ⟨rfl, rfl⟩
  | cons entry rest ih =>
      obtain ⟨key, v⟩ := entry
      obtain ⟨w, rest', hw, hr, rfl⟩ := coerceEntries_cons h
      by_cases hk : key = name
      · subst hk
        exact Or.inr ⟨v, w, by simp [Record.field?], by simp [Record.field?], hw⟩
      · simpa [Record.field?, hk] using ih hr

/-- In a record in the form of some fields, every field of a name has a value in its form. -/
theorem field_holds_of_coerceEntries {fields : List Field} {raw r : Record}
    (h : coerceEntries fields raw = .ok r) {name : String} {f : Field}
    (hf : fieldNamed? fields name = some f) : f.Holds (Record.field r name) := by
  rcases field?_coerceEntries h name with ⟨_, hr⟩ | ⟨v, w, _, hr, hw⟩
  · rw [Record.field, hr]
    exact Or.inl rfl
  · rw [Record.field, hr]
    rw [hf] at hw
    exact Field.coerce_holds hw

end Rowgate
