import Rowgate.Proofs.Entity.Form
import Rowgate.Proofs.Sql.Like
import Rowgate.Sql.FilterClause

/-!
# Tests of columns

What a test brings to the column it names: the column belongs to a field of the entity, and the
condition of the test has a form that depends on the operator alone. Operators that compare values
get a value in the form of the field, operators that look for a text get a text, and either may get
null.
-/

namespace Rowgate

/-! ## The condition of a test -/

namespace Test

variable {t : Test} {f : Field} {w : Value}

/-- The condition of an operator that compares values has the form of the field. -/
theorem condition_holds {o : Operator} {r : Sql.Relation} (ho : t.operator = some o)
    (hr : o.relation? = some r) (h : t.condition (some f) = .ok w) : f.Holds w := by
  rw [condition, ho] at h
  have hkind : o.isValueless = false ∧ o.isTextual = false := by
    cases o <;> first | exact ⟨rfl, rfl⟩ | cases hr
  simp only [Option.any_some, hkind, Bool.false_or, Bool.false_eq_true, if_false] at h
  split at h
  · cases h
    exact Or.inl rfl
  · rw [coerced] at h
    cases hc : coerceFor (some f) t.value with
    | error e => rw [hc] at h; cases h
    | ok v =>
        rw [hc] at h
        cases h
        exact Field.coerce_holds hc

theorem exists_of_asText {v : Value} (h : asText v = .ok w) : ∃ s, w = .str s := by
  rw [asText.eq_def] at h
  split at h
  · cases h
    exact ⟨_, rfl⟩
  · split at h
    · cases h
      exact ⟨_, rfl⟩
    · cases h

/-- The condition of an operator that looks for a text is a text or null. -/
theorem condition_of_search {o : Operator} {field : Option Field} (ho : t.operator = some o)
    (hs : o.isSearch = true) (h : t.condition field = .ok w) : w = .null ∨ ∃ s, w = .str s := by
  rw [condition, ho] at h
  have hkind : o.isValueless = false ∧ o.isTextual = true := by
    cases o <;> first | exact ⟨rfl, rfl⟩ | cases hs
  simp only [Option.any_some, hkind, Bool.false_or, if_true] at h
  split at h
  · cases h
    exact Or.inl rfl
  · exact Or.inr (exists_of_asText h)

/-- The condition of an operator that has one is null exactly if the value of the test is. -/
theorem isNull_condition {o : Operator} (ho : t.operator = some o) (hv : o.isValueless = false)
    (h : t.condition (some f) = .ok w) : w.isNull = t.value.isNull := by
  rw [condition, ho, Option.any_some, hv, Bool.false_or] at h
  by_cases hnull : t.value.isNull = true
  · rw [if_pos hnull] at h
    cases h
    exact hnull.symm
  · rw [if_neg hnull] at h
    rw [Bool.not_eq_true] at hnull
    rw [hnull]
    split at h
    · obtain ⟨s, rfl⟩ := exists_of_asText h
      rfl
    · rw [coerced, coerceFor, Field.coerce_of_not_null hnull] at h
      cases hc : f.coerceSome t.value with
      | error e => rw [hc] at h; cases h
      | ok v =>
          rw [hc] at h
          cases h
          exact (Field.coerceSome_fits hc).not_null

/-- Only in texts the case of letters can be ignored. -/
theorem kind_of_folds (h : t.folds (some f) = true) : f.kind = .string := by
  rw [folds, Bool.and_eq_true] at h
  simpa [isTextual] using h.2

end Test

/-! ## The clause of a test -/

namespace Operator

open Sql

variable {o : Operator} {c : Column} {fold : Bool} {w : Value}

/-- The clause of an operator that compares values is its comparison. -/
theorem clause_of_relation {rel : Relation} (h : o.relation? = some rel) (c : Column) (fold : Bool)
    (w : Value) : o.clause c fold w = comparison rel c fold w := by
  cases o <;> cases h <;> rfl

/-- The clause of an operator that looks for a text is its search. -/
theorem clause_of_search (h : o.isSearch = true) (c : Column) (fold : Bool) (w : Value) :
    o.clause c fold w = o.search c fold w := by
  cases o <;> first | rfl | cases h

/-- The clause of an operator without a condition is the same whatever it is given for one. -/
theorem clause_of_question (hr : o.relation? = none) (hs : o.isSearch = false) (c : Column)
    (fold : Bool) (v w : Value) : o.clause c fold v = o.clause c fold w := by
  cases o <;> first | rfl | exact absurd hs (by decide) | exact absurd hr (by decide)

/-- The clause of a comparison with a value in the form of a field. -/
theorem comparison_of_fits {rel : Relation} {clause : Clause} {k : FieldKind} (hw : Fits k w)
    (hfold : fold = true → k = .string)
    (h : comparison rel c fold w = .ok clause) : clause = .compare c rel fold w := by
  cases hf : fold with
  | true =>
      cases hfold hf
      cases hw
      rw [hf] at h
      exact (Except.ok.inj h).symm
  | false =>
      rw [hf] at h
      cases hw <;> exact (Except.ok.inj h).symm

end Operator

/-! ## Columns and fields -/

namespace Sql

variable {schema : Option String} {e : Entity} {table : Table}

/-- What a test that becomes a clause names, and what its clause is. -/
theorem ofTest_eq_ok {s : ClauseScope} {t : Test} {clause : Clause}
    (h : Clause.ofTest s t = .ok clause) :
    ∃ o c w, t.operator = some o ∧ s.table.column? t.fieldName = some c ∧
      t.condition (fieldNamed? s.fields t.fieldName) = .ok w ∧
      o.clause c (t.folds (fieldNamed? s.fields t.fieldName)) w = .ok clause := by
  rw [Clause.ofTest] at h
  cases ho : t.operator with
  | none => rw [ho] at h; cases h
  | some o =>
      simp only [ho] at h
      split at h
      · cases hc : s.table.column? t.fieldName with
        | none => rw [hc] at h; cases h
        | some c =>
            simp only [hc] at h
            cases hw : t.condition (fieldNamed? s.fields t.fieldName) with
            | error fault => rw [hw] at h; cases h
            | ok w =>
                rw [hw] at h
                exact ⟨o, c, w, rfl, rfl, rfl, h⟩
      · cases h

/-- The clauses of members of which the first one is there. -/
theorem ofMembers_some {s : ClauseScope} {f : Filter} {ms : List (Option Filter)}
    {cs : List Clause} (h : Clause.ofMembers s (some f :: ms) = .ok cs) :
    ∃ c cs', Clause.ofFilter s f = .ok c ∧ Clause.ofMembers s ms = .ok cs' ∧ cs = c :: cs' := by
  rw [Clause.ofMembers] at h
  cases hf : Clause.ofFilter s f with
  | error fault => rw [hf] at h; cases h
  | ok c =>
      cases hms : Clause.ofMembers s ms with
      | error fault => rw [hf, hms] at h; cases h
      | ok cs' =>
          rw [hf, hms] at h
          exact ⟨c, cs', rfl, rfl, (Except.ok.inj h).symm⟩

theorem table_of_entity (ht : Table.ofEntity schema e = .ok table) :
    table.columns = e.fields.map Column.ofField := by
  rw [Table.ofEntity] at ht
  split at ht
  · cases ht
  · cases ht
    rfl

/-- Each column of the table of an entity is the column of a field. -/
theorem exists_field_of_column (ht : Table.ofEntity schema e = .ok table) {name : String}
    {c : Column} (hc : table.column? name = some c) :
    c.name = name ∧ ∃ f, fieldNamed? e.fields name = some f ∧ f ∈ e.fields ∧ f.name = name := by
  rw [Table.column?, table_of_entity ht] at hc
  have hname : c.name = name := by simpa using List.find?_some hc
  obtain ⟨f, hf, rfl⟩ := List.mem_map.mp (List.mem_of_find?_eq_some hc)
  have hsome : (fieldNamed? e.fields name).isSome = true := by
    rw [fieldNamed?, List.find?_isSome]
    exact ⟨f, List.mem_reverse.mpr hf, beq_iff_eq.mpr hname⟩
  obtain ⟨g, hg⟩ := Option.isSome_iff_exists.mp hsome
  exact ⟨hname, g, hg, mem_of_fieldNamed? hg⟩

end Sql

/-! ## An entity for examples -/

/-- Goods with a name and a price. -/
def goods : Entity := ⟨"Goods", none, false, [
  ⟨"Name", none, 0, 0, .string, true, true, false⟩,
  ⟨"Price", none, 0, 2, .numeric, false, false, false⟩]⟩

end Rowgate
