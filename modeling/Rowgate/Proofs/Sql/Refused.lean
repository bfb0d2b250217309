import Rowgate.Proofs.Filter.Conditions
import Rowgate.Proofs.Number.Digits
import Rowgate.Proofs.Sql.Agreement

/-!
# Filters that are refused

A filter is compiled test by test, from the left, and the first test that cannot be compiled decides:
its fault is the fault of the whole filter. How the tests are grouped does not matter, since the
members of a group are all compiled before the group is put together; a constant that decides a group
hides no fault behind it.

So what is left are single tests. A table refuses a test of a field that it does not have, and both
backends refuse a test that is unfit for its field. Nothing else goes wrong: an operator on a column
always has a clause for a condition in the form of the field. A file has no field to find, and a test
of an unknown one is compiled for the value as it is.
-/

namespace Rowgate

open Outcome

/-- A test of the members of a group is a test of one of them. -/
theorem Filter.exists_of_mem_memberTests {ms : List (Option Filter)} {t : Test}
    (h : t ∈ memberTests ms) : ∃ f, some f ∈ ms ∧ t ∈ f.tests := by
  induction ms with
  | nil => cases h
  | cons m ms ih =>
      have htail : t ∈ memberTests ms → ∃ f, some f ∈ m :: ms ∧ t ∈ f.tests := fun ht => by
        obtain ⟨f, hf, htf⟩ := ih ht
        exact ⟨f, List.mem_cons_of_mem m hf, htf⟩
      cases m with
      | none => exact htail h
      | some f =>
          rcases List.mem_append.mp h with ht | ht
          · exact ⟨f, List.mem_cons_self, ht⟩
          · exact htail ht

/-- The tests of a filter all have what every test of it has that matters. -/
theorem Filter.AllTests.of_mem_tests {P : Test → Prop} {f : Filter} (h : f.AllTests P) {t : Test}
    (ht : t ∈ f.tests) : P t := by
  induction h with
  | leaf logic hP =>
      rw [List.mem_singleton.mp ht]
      exact hP
  | @group _ logic ms hne _ ih =>
      rw [tests, if_neg (by simpa using hne)] at ht
      obtain ⟨f, hf, htf⟩ := exists_of_mem_memberTests ht
      exact ih f hf htf

/-! ## The first fault -/

/-- What comes out is up to some tests: a fault exactly if one of them offends, and then the fault of
the first one that does. -/
structure RefusedAt {α : Type} (offends : Test → Fault → Prop) (tests : List Test)
    (x : Except Fault α) : Prop where
  error_iff : (∃ fault, x = .error fault) ↔ ∃ t ∈ tests, ∃ fault, offends t fault
  first : ∀ fault, x = .error fault → ∃ before t after, tests = before ++ t :: after ∧
    (∀ u ∈ before, ∀ other, ¬ offends u other) ∧ offends t fault

theorem refusedAt_of_error? {α : Type} {offends : Test → Fault → Prop} {tests : List Test}
    {x : Except Fault α} {fault? : Test → Option Fault} (hx : error? x = tests.findSome? fault?)
    (h : ∀ t ∈ tests, ∀ fault, fault? t = some fault ↔ offends t fault) :
    RefusedAt offends tests x := by
  have hsome : ∀ fault, x = .error fault ↔ tests.findSome? fault? = some fault := by
    intro fault
    rw [← hx, error?_eq_some_iff]
  constructor
  · simp only [hsome]
    rw [← Option.isSome_iff_exists, List.isSome_findSome?, List.any_eq_true]
    refine exists_congr fun t => and_congr_right fun ht => ?_
    rw [Option.isSome_iff_exists]
    exact exists_congr fun fault => h t ht fault
  · intro fault hfault
    obtain ⟨before, t, after, heq, ht, hbefore⟩ :=
      List.findSome?_eq_some_iff.mp ((hsome fault).mp hfault)
    have hmem : t ∈ tests := by
      rw [heq]
      exact List.mem_append_right _ List.mem_cons_self
    refine ⟨before, t, after, heq, fun u hu other hother => ?_, (h t hmem fault).mp ht⟩
    have hu' : u ∈ tests := by
      rw [heq]
      exact List.mem_append_left _ hu
    have hnone := hbefore u hu
    rw [(h u hu' other).mpr hother] at hnone
    cases hnone

namespace Sql.Clause

mutual

/-- A clause is refused for the first test that has none. -/
theorem error?_ofFilter (s : ClauseScope) : ∀ f : Filter,
    error? (ofFilter s f) = f.tests.findSome? fun t => error? (ofTest s t)
  | .node t logic members => by
      rw [ofFilter, Filter.tests]
      split
      · rw [List.findSome?_singleton]
      · show error? ((ofMembers s members).bind fun cs => .ok (combine logic cs)) = _
        rw [← error?_ofMembers s members]
        cases ofMembers s members <;> rfl

theorem error?_ofMembers (s : ClauseScope) : ∀ ms : List (Option Filter),
    error? (ofMembers s ms) = (Filter.memberTests ms).findSome? fun t => error? (ofTest s t)
  | [] => rfl
  | none :: ms => error?_ofMembers s ms
  | some f :: ms => by
      rw [ofMembers, Filter.memberTests, List.findSome?_append, ← error?_ofFilter s f,
        ← error?_ofMembers s ms]
      exact error?_both (ofFilter s f) (ofMembers s ms) List.cons

end

end Sql.Clause

namespace Predicate

mutual

/-- A predicate is refused for the first test that has none, if all members of a group count. -/
theorem error?_ofFilter {s : FilterScope} (hs : s.allMembers = true) : ∀ f : Filter,
    error? (ofFilter s f).result = f.tests.findSome? fun t => error? (ofTest s t)
  | .node t logic members => by
      by_cases hempty : members.isEmpty = true
      · rw [ofFilter, Filter.tests, if_pos hempty, if_pos hempty, List.findSome?_singleton]
        rfl
      · have hlimit : FilterScope.limit s members.length = members.length := if_pos hs
        rw [result_ofFilter_group t logic (by simpa using hempty), hlimit, error?_map,
          error?_ofMembers hs members (Nat.le_refl _), Filter.tests, if_neg hempty]

theorem error?_ofMembers {s : FilterScope} (hs : s.allMembers = true) :
    ∀ (ms : List (Option Filter)) {limit : Nat}, ms.length ≤ limit →
      error? (ofMembers s limit ms).result =
        (Filter.memberTests ms).findSome? fun t => error? (ofTest s t)
  | [], _, _ => rfl
  | none :: ms, limit, hlimit => by
      rw [List.length_cons] at hlimit
      rw [ofMembers, if_neg (by omega), Filter.memberTests]
      exact error?_ofMembers hs ms (by omega)
  | some f :: ms, limit, hlimit => by
      rw [List.length_cons] at hlimit
      rw [ofMembers, if_neg (by omega), Filter.memberTests, List.findSome?_append,
        ← error?_ofFilter hs f, ← error?_ofMembers hs ms (show ms.length ≤ limit - 1 by omega)]
      simp only [Traced.result_bind, Traced.result_pure]
      exact error?_both (ofFilter s f).result (ofMembers s (limit - 1) ms).result List.cons

end

end Predicate

/-! ## Single tests -/

namespace Operator

open Sql

variable {o : Operator} {t : Test} {f : Field} {w : Value}

/-- An operator has a clause for every condition that a test of a field can have. -/
theorem exists_clause (ho : t.operator = some o) (hw : t.condition (some f) = .ok w) (c : Column)
    (fold : Bool) : ∃ clause, o.clause c fold w = .ok clause := by
  cases hrel : o.relation? with
  | some rel =>
      rw [clause_of_relation hrel]
      rcases Test.condition_holds ho hrel hw with rfl | hfits
      · exact ⟨_, rfl⟩
      · generalize f.kind = kind at hfits
        cases hfits <;> exact ⟨_, rfl⟩
  | none =>
      by_cases hsearch : o.isSearch = true
      · rw [clause_of_search hsearch]
        rcases Test.condition_of_search ho hsearch hw with rfl | ⟨s, rfl⟩
        · exact ⟨_, rfl⟩
        · exact ⟨_, rfl⟩
      · cases o
        case isNull | isNotNull | isEmpty | isNotEmpty => exact ⟨_, rfl⟩
        all_goals first | exact absurd hrel (by decide) | exact absurd rfl hsearch

end Operator

namespace Test

open Sql

variable {schema : Option String} {e : Entity} {t : Test} {fault : Fault}

/-- Why a test cannot be compiled for the records of a file. -/
def OffendsFile (e : Entity) (t : Test) : Fault → Prop := t.Unfit (fieldNamed? e.fields t.fieldName)

/-- Why a test cannot be compiled for the rows of a table: it names no field, or it is unfit for the
field that it names. -/
inductive OffendsTable (e : Entity) (t : Test) : Fault → Prop
  | unknown (hfield : fieldNamed? e.fields t.fieldName = none) :
      OffendsTable e t (Filter.fault t.fieldName "Unknown field")
  | unfit {f : Field} {fault : Fault} (hfield : fieldNamed? e.fields t.fieldName = some f)
      (h : t.Unfit (some f) fault) : OffendsTable e t fault

theorem ofTest_file_eq_error_iff (ht : t.Complete) :
    Predicate.ofTest (fileScope e) t = .error fault ↔ t.OffendsFile e fault := by
  obtain ⟨o, ho⟩ := Option.isSome_iff_exists.mp ht.2
  have hmem : (fileScope e).operators.contains o = true := List.contains_iff_mem.mpr o.mem_all
  rw [OffendsFile, ← condition_eq_error_iff ho, Predicate.ofTest, ho]
  show (if _ then _ else _) = _ ↔ _
  rw [if_pos hmem]
  show (t.condition (fieldNamed? e.fields t.fieldName)).bind _ = _ ↔ _
  rw [bind_eq_error]
  refine or_iff_left ?_
  rintro ⟨_, -, h⟩
  cases h

/-- A table has a column for each field. -/
theorem column?_describing_eq_none_iff {name : String} :
    (Table.describing schema e).column? name = none ↔ fieldNamed? e.fields name = none := by
  rw [Table.column?, Table.describing, fieldNamed?, List.find?_eq_none, List.find?_eq_none]
  simp [Column.ofField]

theorem ofTest_table_eq_error_iff (ht : t.Complete) :
    Clause.ofTest (tableScope e (Table.describing schema e)) t = .error fault ↔
      t.OffendsTable e fault := by
  obtain ⟨o, ho⟩ := Option.isSome_iff_exists.mp ht.2
  have hmem : Operator.all.contains o = true := List.contains_iff_mem.mpr o.mem_all
  rw [Clause.ofTest, ho]
  simp only [tableScope, hmem, if_true]
  cases hcolumn : (Table.describing schema e).column? t.fieldName with
  | none =>
      have hfield := column?_describing_eq_none_iff.mp hcolumn
      constructor
      · rintro ⟨⟩
        exact .unknown hfield
      · rintro (_ | ⟨hf, _⟩)
        · rfl
        · rw [hfield] at hf
          cases hf
  | some c =>
      have hknown : fieldNamed? e.fields t.fieldName ≠ none := fun h => by
        rw [column?_describing_eq_none_iff.mpr h] at hcolumn
        cases hcolumn
      obtain ⟨f, hf⟩ := Option.ne_none_iff_exists'.mp hknown
      show (t.condition (fieldNamed? e.fields t.fieldName)).bind _ = _ ↔ _
      rw [bind_eq_error, hf, condition_eq_error_iff ho]
      constructor
      · rintro (h | ⟨w, hw, h⟩)
        · exact .unfit hf h
        · obtain ⟨clause, hclause⟩ := Operator.exists_clause ho hw c (t.folds (some f))
          rw [hclause] at h
          cases h
      · rintro (hnone | ⟨hf', h⟩)
        · exact absurd hnone hknown
        · rw [hf] at hf'
          cases hf'
          exact .inl h

/-- Tests of known fields offend a table exactly if they offend a file. -/
theorem offendsTable_iff_of_known (h : (fieldNamed? e.fields t.fieldName).isSome) :
    t.OffendsTable e fault ↔ t.OffendsFile e fault := by
  obtain ⟨f, hf⟩ := Option.isSome_iff_exists.mp h
  rw [OffendsFile, hf]
  constructor
  · rintro (hnone | ⟨hf', hunfit⟩)
    · rw [hf] at hnone
      cases hnone
    · rw [hf] at hf'
      cases hf'
      exact hunfit
  · exact .unfit hf

/-- A test that offends is blamed by a fault of the filter at the field that it names, unless a text is
looked for that cannot be written. -/
theorem OffendsTable.blames (h : t.OffendsTable e fault) :
    (∃ message, fault = Filter.fault t.fieldName message) ∨
      t.operator.any Operator.isSearch = true ∧ t.value.HasLongInteger := by
  cases h with
  | unknown => exact .inl ⟨_, rfl⟩
  | unfit _ hunfit => exact hunfit.blames

end Test

/-! ## Whole filters -/

section Filter

open Sql

variable {f : Filter}

/-- Both backends refuse a filter exactly if one of its tests offends, and with the fault of the first
one that does: a table if the test names an unknown field or is unfit for the field that it names, a
file if it is unfit. The fault tells of the field of the test. Where all fields are known, a filter is
refused by both backends with one fault, or by neither of them.

A test is unfit if its value has no form of the field and the operator compares values in that form.
Values that the operator does not need are never looked at, and where it needs no more than a text
there is one, unless an integer of the value has more digits than can be written. -/
theorem refused_at_first (schema : Option String) (e : Entity) (hf : f.AllTests Test.Complete) :
    RefusedAt (Test.OffendsTable e) f.tests
      (Clause.ofFilter (tableScope e (Table.describing schema e)) f) ∧
    RefusedAt (Test.OffendsFile e) f.tests (Predicate.ofFilter (fileScope e) f).result ∧
    (∀ (t : Test) (fault : Fault), t.OffendsTable e fault ∨ t.OffendsFile e fault →
      (∃ message, fault = Filter.fault t.fieldName message) ∨
        t.operator.any Operator.isSearch = true ∧ t.value.HasLongInteger) ∧
    ((∀ t ∈ f.tests, (fieldNamed? e.fields t.fieldName).isSome) → ∀ fault,
      Clause.ofFilter (tableScope e (Table.describing schema e)) f = .error fault ↔
        (Predicate.ofFilter (fileScope e) f).result = .error fault) := by
  have htable : ∀ t ∈ f.tests, ∀ fault,
      error? (Clause.ofTest (tableScope e (Table.describing schema e)) t) = some fault ↔
        t.OffendsTable e fault := fun t ht fault =>
    error?_eq_some_iff.trans (Test.ofTest_table_eq_error_iff (hf.of_mem_tests ht))
  have hfile : ∀ t ∈ f.tests, ∀ fault,
      error? (Predicate.ofTest (fileScope e) t) = some fault ↔ t.OffendsFile e fault :=
    fun t ht fault => error?_eq_some_iff.trans (Test.ofTest_file_eq_error_iff (hf.of_mem_tests ht))
  refine ⟨refusedAt_of_error? (Clause.error?_ofFilter _ f) htable,
    refusedAt_of_error? (Predicate.error?_ofFilter rfl f) hfile, ?_, fun hknown fault => ?_⟩
  · rintro t fault (h | h)
    · exact h.blames
    · exact Test.Unfit.blames h
  · have hsame : ∀ t ∈ f.tests,
        error? (Clause.ofTest (tableScope e (Table.describing schema e)) t) =
          error? (Predicate.ofTest (fileScope e) t) := fun t ht =>
      Option.ext fun fault => (htable t ht fault).trans
        ((Test.offendsTable_iff_of_known (hknown t ht)).trans (hfile t ht fault).symm)
    rw [← error?_eq_some_iff, ← error?_eq_some_iff, Clause.error?_ofFilter,
      Predicate.error?_ofFilter rfl, ← List.head?_filterMap, ← List.head?_filterMap,
      List.filterMap_congr hsame]

/-- Goods whose name holds a 5, whatever they cost, or which are dearer than a word. -/
def wordyFilter : Filter := .group .any [
  some (.leaf (.of "Name" .contains (.int 5) false)), none,
  some (.group .all [
    some (.leaf (.of "Price" .isNull (.str "whatever") false)),
    some (.leaf (.of "Price" .gt (.str "dear") false))]),
  some (.leaf (.of "Name" .eq (.list []) false))]

/-- The first test with a value that it needs and cannot have is the one that is blamed. -/
theorem refused_at_first_wordy :
    (Predicate.ofFilter (fileScope goods) wordyFilter).result =
      .error (Filter.fault "Price" "Cannot convert 'dear' to a number") := by
  have hcomplete : wordyFilter.AllTests Test.Complete := by
    refine .group _ _ (List.cons_ne_nil _ _) fun g hg => ?_
    simp only [List.mem_cons, Option.some.injEq, List.not_mem_nil, or_false, reduceCtorEq,
      false_or] at hg
    rcases hg with rfl | rfl | rfl
    · exact .leaf _ ⟨by decide, rfl⟩
    · refine .group _ _ (List.cons_ne_nil _ _) fun g hg => ?_
      simp only [List.mem_cons, Option.some.injEq, List.not_mem_nil, or_false] at hg
      rcases hg with rfl | rfl
      · exact .leaf _ ⟨by decide, rfl⟩
      · exact .leaf _ ⟨by decide, rfl⟩
    · exact .leaf _ ⟨by decide, rfl⟩
  have hmessage : (ValueFault.notNumber (.str "dear")).message =
      "Cannot convert 'dear' to a number" := by decide +kernel
  rw [← hmessage]
  exact ((refused_at_first none goods hcomplete).2.2.2 (by decide) _).mp rfl

/-- Goods whose name holds a number. -/
def numberedFilter (number : Int) : Filter := .leaf (.of "Name" .contains (.int number) false)

theorem complete_numbered (number : Int) :
    (Test.of "Name" .contains (.int number) false).Complete :=
  ⟨(by decide : "Name" ≠ ""), rfl⟩

theorem unfit_numbered {number : Int} (h : digitLimit < digitCount number.natAbs)
    (field : Option Field) : (Test.of "Name" .contains (.int number) false).Unfit field
      (.value (.integer .tooLongToWrite)) := by
  have htext : integerText number = .error .tooLongToWrite := if_neg (Nat.not_le.mpr h)
  have hliteral : (Value.int number).literal = .error .tooLongToWrite := by
    rw [Value.literal, htext]
    rfl
  exact .unwritable rfl (congrArg (Except.map String.ofList) hliteral)

/-- Both backends refuse to look for a number with more digits than can be written, but what they blame
is the number and not the filter. -/
theorem long_number_blamed : (numberedFilter (10 ^ 4300)).AllTests Test.Complete ∧
    Clause.ofFilter (tableScope goods (Table.describing none goods)) (numberedFilter (10 ^ 4300)) =
      .error (.value (.integer .tooLongToWrite)) ∧
    (Predicate.ofFilter (fileScope goods) (numberedFilter (10 ^ 4300))).result =
      .error (.value (.integer .tooLongToWrite)) ∧
    ∀ message, Fault.value (.integer .tooLongToWrite) ≠ Filter.fault "Name" message := by
  have hunfit := unfit_numbered (digitLimit_lt_pow (n := 4300) (by decide))
  -- the number itself is not to be looked at from here on
  generalize (10 ^ 4300 : Int) = number at hunfit ⊢
  have hcomplete := complete_numbered number
  refine ⟨.leaf .all hcomplete, ?_, ?_, fun _ => nofun⟩
  · have hfield : fieldNamed? goods.fields "Name" = some goods.fields[0] := rfl
    exact (Test.ofTest_table_eq_error_iff hcomplete).mpr (.unfit hfield (hunfit _))
  · exact (Test.ofTest_file_eq_error_iff hcomplete).mpr (hunfit _)

end Filter

end Rowgate
