import Rowgate.Proofs.Sql.Like
import Rowgate.Proofs.Store.Alike
import Rowgate.Proofs.Value.Literal

/-!
# Conditions that cannot be had

What a test needs of its value depends on its operator. An operator that compares needs the value in
the form of the field, an operator that looks for a text needs the text of the value, and the others
need nothing. So there are two ways for a test to be `Unfit`: its value has no form of the field, or
no text. The first one is a fault of the filter at the field, whatever it was that kept the value from
its form. The second one concerns integers with too many digits only and is a fault of the value.
-/

namespace Rowgate

open Outcome

namespace Operator

variable {o : Operator}

/-- Whether an operator compares values in the form of a field: it has a condition, and does not take
it as a text. -/
def isComparison (o : Operator) : Bool := !o.isValueless && !o.isTextual

theorem of_isValueless (h : o.isValueless = true) : o.isComparison = false ∧ o.isSearch = false := by
  revert h
  cases o <;> decide

theorem of_isSearch (h : o.isSearch = true) :
    o.isValueless = false ∧ o.isTextual = true ∧ o.isComparison = false := by
  revert h
  cases o <;> decide

theorem of_isComparison (h : o.isComparison = true) :
    o.isValueless = false ∧ o.isTextual = false ∧ o.isSearch = false := by
  revert h
  cases o <;> decide

/-- An operator has no condition, looks for a text, or compares values. -/
theorem kinds (o : Operator) :
    o.isValueless = true ∨ o.isSearch = true ∨ o.isComparison = true := by
  cases o <;> decide

end Operator

namespace Test

variable {t : Test} {field : Option Field} {o : Operator} {fault : Fault}

/-- Why the condition of a test of a field cannot be had, and the fault that it comes to. -/
inductive Unfit (t : Test) (field : Option Field) : Fault → Prop
  /-- The operator compares values, and the value of the test has no form of the field. -/
  | uncoercible {f : Field} {reason : ValueFault} (hfield : field = some f)
      (ho : t.operator.any Operator.isComparison = true)
      (hvalue : f.coerce t.value = .error reason) :
      Unfit t field (Filter.fault t.fieldName reason.message)
  /-- The operator looks for a text, and the value of the test has none. -/
  | unwritable {reason : IntegerFault} (ho : t.operator.any Operator.isSearch = true)
      (hvalue : t.value.plainText = .error reason) : Unfit t field (.value (.integer reason))

/-! ## Tests that are fit -/

/-- Null has every form and needs no text. -/
theorem not_unfit_of_null (h : t.value = .null) : ¬ t.Unfit field fault := by
  rintro (⟨_, _, hvalue⟩ | ⟨_, hvalue⟩)
  · rw [h] at hvalue
    cases hvalue
  · rw [h] at hvalue
    cases hvalue

theorem not_unfit_of_isValueless (ho : t.operator = some o) (h : o.isValueless = true) :
    ¬ t.Unfit field fault := by
  obtain ⟨hcompare, hsearch⟩ := Operator.of_isValueless h
  rintro (⟨_, ho', _⟩ | ⟨ho', _⟩)
  · rw [ho, Option.any_some, hcompare] at ho'
    cases ho'
  · rw [ho, Option.any_some, hsearch] at ho'
    cases ho'

theorem unfit_iff_of_isSearch (ho : t.operator = some o) (h : o.isSearch = true) :
    t.Unfit field fault ↔
      ∃ reason, t.value.plainText = .error reason ∧ fault = .value (.integer reason) := by
  obtain ⟨-, -, hcompare⟩ := Operator.of_isSearch h
  constructor
  · rintro (⟨_, ho', _⟩ | ⟨_, hvalue⟩)
    · rw [ho, Option.any_some, hcompare] at ho'
      cases ho'
    · exact ⟨_, hvalue, rfl⟩
  · rintro ⟨reason, hvalue, rfl⟩
    exact .unwritable (by rw [ho, Option.any_some, h]) hvalue

theorem unfit_iff_of_isComparison (ho : t.operator = some o) (h : o.isComparison = true) :
    t.Unfit field fault ↔ ∃ f reason, field = some f ∧ f.coerce t.value = .error reason ∧
      fault = Filter.fault t.fieldName reason.message := by
  obtain ⟨-, -, hsearch⟩ := Operator.of_isComparison h
  constructor
  · rintro (⟨hfield, _, hvalue⟩ | ⟨ho', _⟩)
    · exact ⟨_, _, hfield, hvalue, rfl⟩
    · rw [ho, Option.any_some, hsearch] at ho'
      cases ho'
  · rintro ⟨f, reason, hfield, hvalue, rfl⟩
    exact .uncoercible hfield (by rw [ho, Option.any_some, h]) hvalue

/-! ## Conditions of tests -/

/-- A value has the text that it is taken as, unless it has none. -/
theorem asText_eq_error_iff {v : Value} :
    asText v = .error fault ↔
      ∃ reason, v.plainText = .error reason ∧ fault = .value (.integer reason) := by
  rw [asText_eq]
  cases v.plainText with
  | ok s => exact ⟨nofun, nofun⟩
  | error reason =>
      constructor
      · intro h
        exact ⟨reason, rfl, (Except.error.inj h).symm⟩
      · rintro ⟨_, ⟨⟩, rfl⟩
        rfl

theorem coerced_eq_error_iff :
    t.coerced field = .error fault ↔
      ∃ f reason, field = some f ∧ f.coerce t.value = .error reason ∧
        fault = Filter.fault t.fieldName reason.message := by
  constructor
  · intro h
    cases field with
    | none =>
        rw [coerced] at h
        cases h
    | some f =>
        rw [coerced, coerceFor] at h
        cases hvalue : f.coerce t.value with
        | ok w =>
            rw [hvalue] at h
            cases h
        | error reason =>
            rw [hvalue] at h
            exact ⟨f, reason, rfl, hvalue, (Except.error.inj h).symm⟩
  · rintro ⟨f, reason, rfl, hvalue, rfl⟩
    rw [coerced, coerceFor, hvalue]
    rfl

/-- The condition of a test of a field cannot be had exactly if the test is unfit. Null is a condition
for every operator. -/
theorem condition_eq_error_iff (ho : t.operator = some o) :
    t.condition field = .error fault ↔ t.Unfit field fault := by
  rw [condition, ho, Option.any_some, Option.any_some]
  by_cases hnull : t.value.isNull = true
  · rw [hnull, Bool.or_true, if_pos rfl]
    refine iff_of_false ?_ (not_unfit_of_null (Value.eq_null_of_isNull hnull))
    intro h
    cases h
  rw [Bool.eq_false_iff.mpr hnull, Bool.or_false]
  rcases o.kinds with hless | hsearch | hcompare
  · rw [if_pos hless]
    refine iff_of_false ?_ (not_unfit_of_isValueless ho hless)
    intro h
    cases h
  · obtain ⟨hless, htext, -⟩ := Operator.of_isSearch hsearch
    rw [hless, htext, if_neg Bool.false_ne_true, if_pos rfl, asText_eq_error_iff,
      unfit_iff_of_isSearch ho hsearch]
  · obtain ⟨hless, htext, -⟩ := Operator.of_isComparison hcompare
    rw [hless, htext, if_neg Bool.false_ne_true, if_neg Bool.false_ne_true, coerced_eq_error_iff,
      unfit_iff_of_isComparison ho hcompare]

/-- An unfit test is a fault of the filter at its field, unless an integer that has no text lies in a
value of which the text is needed. -/
theorem Unfit.blames (h : t.Unfit field fault) :
    (∃ message, fault = Filter.fault t.fieldName message) ∨
      t.operator.any Operator.isSearch = true ∧ t.value.HasLongInteger := by
  cases h with
  | uncoercible => exact .inl ⟨_, rfl⟩
  | unwritable ho hvalue => exact .inr ⟨ho, Value.plainText_eq_error_iff.mp ⟨_, hvalue⟩⟩

end Test

end Rowgate
