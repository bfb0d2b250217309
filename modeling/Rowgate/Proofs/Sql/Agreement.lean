import Rowgate.Proofs.Sql.Condition
import Rowgate.Proofs.Sql.Search
import Rowgate.Store.Predicate

/-!
# One filter, two backends

A filter is compiled twice: to a predicate that is asked of the records of a file, and to a clause
that a database asks of the rows of a table. The two compilers share no more than the conditions of
the tests. This file shows that they select the same records: the predicate never fails on a record
in the form of its fields, and accepts it exactly if the clause is true of it, where unknown is not
true.

At a test, null on either side makes the clause unknown or a constant and the predicate false; two
values in the form of the field are compared as the data they stand for, on both sides
(`accepts_iff_of_comparison`); and a search meets its pattern character by character
(`accepts_iff_of_search`). Groups add nothing but the normal form of the clause, which
`truthOn_combine` sees through.
-/

namespace Rowgate

/-! ## Single tests -/

section Test

open Sql

variable {r : Record} {f : Field} {c : Column} {v w : Value} {o : Operator} {fold : Bool}

theorem Fits.folded {k : FieldKind} (h : Fits k v) (fold : Bool) : Fits k (v.folded fold) := by
  cases h <;> constructor

theorem Value.isLocal_folded (fold : Bool) : (v.folded fold).isLocal = v.isLocal := by
  cases v <;> rfl

theorem Value.folded_of_not_string {k : FieldKind} (h : Fits k v) (hk : k ≠ .string)
    (fold : Bool) : v.folded fold = v := by
  cases h <;> first | rfl | exact absurd rfl hk

/-- Values whose order is known satisfy an operator if it is the order that the operator asks for. -/
theorem comparesValues_of_order {x : Option Ordering} {rel : Relation}
    (hrel : o.relation? = some rel) (hequals : v.equals w = (x == some .eq))
    (hcompare : v.compare w = x.elim (.error .unlike) fun o => .ok (some o))
    (hr : v.refusesEquality w = false) : o.comparesValues v w = .ok (rel.holds x) := by
  have hordered : ∀ wanted, v.ordered wanted w = .ok (x.any wanted) := by
    intro wanted
    rw [Value.ordered, hcompare]
    cases x <;> rfl
  cases o <;> cases hrel
  case eq => simp only [Operator.comparesValues, Value.equalTo, hr, hequals]; rfl
  case neq => simp only [Operator.comparesValues, Value.equalTo, hr, hequals]; rfl
  all_goals
    rw [Operator.comparesValues, hordered]
    cases x with
    | none => rfl
    | some o => cases o <;> rfl

/-- Values that are compared as data satisfy an operator if the data do. -/
theorem comparesValues_eq {a b : Datum} {rel : Relation} (hrel : o.relation? = some rel)
    (h : Fits.ComparedAs v w a b) (hr : v.refusesEquality w = false) :
    o.comparesValues v w = .ok (rel.holds (a.order? b)) := by
  obtain ⟨_, _, heq, hcmp⟩ := h
  exact comparesValues_of_order hrel (by rw [Bool.eq_iff_iff, heq, beq_iff_eq]) hcmp hr

/-- A comparison selects the same records on both sides. The record has `v` at the column, and `v'`
is `v` in the form of the field once more. -/
theorem accepts_iff_of_comparison {v' : Value} {rel : Relation} {clause : Clause}
    (hrel : o.relation? = some rel) (hv : f.Holds v) (hl : v.isLocal = true)
    (hc : f.coerce v = .ok v') (hw : f.Holds w) (hfold : fold = true → f.kind = .string)
    (hcol : Record.field r c.name = v) (h : Operator.comparison rel c fold w = .ok clause) :
    o.holds fold v' w = .ok (clause.truthOn r == .yes) := by
  obtain ⟨_, hc', hv', hnull, hdatum, hsame⟩ := Field.coerce_of_holds hv
  cases hc.symm.trans hc'
  have hholds : o.holds fold v' w = if v'.isNull || w.isNull then .ok false
      else o.comparesValues (v'.folded fold) (w.folded fold) := by
    cases o <;> first | rfl | cases hrel
  rw [hholds]
  rcases hw with rfl | hw
  · cases (Except.ok.inj h).symm
    rw [if_pos (by rw [Bool.or_eq_true]; exact Or.inr rfl)]
    rfl
  · cases Operator.comparison_of_fits hw hfold h
    rw [Clause.truthOn, hcol]
    rcases hv with rfl | hv
    · rw [if_pos (by rw [hnull]; rfl)]
      rfl
    · have hv'' : Fits f.kind v' := hv'.resolve_left
        (fun he => by rw [he, hv.not_null] at hnull; cases hnull)
      rw [if_neg (by rw [hv''.not_null, hw.not_null]; decide)]
      -- a text is not changed by its field, and everything else is not changed by folding
      have hlocal : v'.isLocal = true ∧ (v'.folded fold).datum? = (v.folded fold).datum? := by
        by_cases hk : f.kind = .numeric
        · rw [hk] at hv hv''
          rw [Value.folded_of_not_string hv (by decide),
            Value.folded_of_not_string hv'' (by decide)]
          exact ⟨by cases hv'' <;> rfl, hdatum⟩
        · rw [hsame hk]
          exact ⟨hl, rfl⟩
      obtain ⟨a, b, hcmp⟩ := Fits.comparedAs (hv''.folded fold) (hw.folded fold)
        (by rw [Value.isLocal_folded, hlocal.1])
      have hknown := Fits.not_refusesEquality (hv''.folded fold) (hw.folded fold)
      rw [comparesValues_eq hrel hcmp hknown, ← hlocal.2, hcmp.1, hcmp.2.1, Relation.truth,
        Truth.ofBool_eq_yes]

/-- A search selects the same records on both sides. -/
theorem accepts_iff_of_search {clause : Clause} (ho : o.isSearch = true) (hk : f.kind = .string)
    (hv : f.Holds v) (hw : w = .null ∨ ∃ s, w = .str s) (hcol : Record.field r c.name = v)
    (h : o.search c fold w = .ok clause) :
    o.holds fold v w = .ok (clause.truthOn r == .yes) := by
  have hholds : o.holds fold v w = if v.isNull || w.isNull then .ok false
      else v.searchable fold >>= fun text => w.searchable fold >>= fun part =>
        .ok (o.matchesText text part) := by
    cases o <;> first | rfl | cases ho
  rcases hw with rfl | ⟨part, rfl⟩
  · cases (Except.ok.inj h).symm
    rw [hholds, if_pos (by rw [Bool.or_eq_true]; exact Or.inr rfl)]
    rfl
  · cases (Except.ok.inj h).symm
    rcases hv with rfl | hv
    · rw [hholds, Clause.truthOn, hcol]
      rfl
    · rw [hk] at hv
      cases hv with
      | str text =>
          rw [Operator.holds_of_isSearch ho]
          exact congrArg Except.ok ((Truth.ofBool_eq_yes _).symm.trans
            (congrArg (· == Truth.yes) (Clause.truthOn_search ho fold part hcol).symm))

/-- A value in the form of a field is empty on both sides or on neither. -/
theorem equals_empty_iff (hv : f.Holds v) :
    (Relation.eq.truth v.datum? (some (.text [])) == Truth.yes) = v.equals (.str "") := by
  rcases hv with rfl | hv
  · rfl
  · cases hk : f.kind <;> rw [hk] at hv <;> cases hv
    case string.str s =>
      rw [Value.datum?, Relation.truth, Truth.ofBool_eq_yes, Value.equals, Relation.holds,
        Datum.order?, Bool.eq_iff_iff, beq_iff_eq, beq_iff_eq, Option.some_inj, linearly_eq_iff,
        show ([] : List Nat) = Text.codes "".toList from rfl, Text.codes_inj, String.toList_inj]
    case dateTime.dateTime t =>
      rw [Value.datum?]
      cases t.offset.isSome <;> rfl
    case time.time t =>
      rw [Value.datum?]
      cases t.offset <;> rfl
    all_goals rfl

/-- Whether there is a value or a text at all is answered alike on both sides. -/
theorem accepts_iff_of_question {v' : Value} {clause : Clause} (ho : o.isSearch = false)
    (hrel : o.relation? = none) (hv : f.Holds v) (hc : f.coerce v = .ok v')
    (hcol : Record.field r c.name = v) (h : o.clause c fold w = .ok clause) :
    o.holds fold v' w = .ok (clause.truthOn r == .yes) := by
  obtain ⟨_, hc', hv', hnull, hdatum, hsame⟩ := Field.coerce_of_holds hv
  cases hc.symm.trans hc'
  have hempty := equals_empty_iff hv'
  cases o
  case isNull =>
    cases (Except.ok.inj h).symm
    rw [Clause.truthOn, hcol, Bool.bne_false, Truth.ofBool_eq_yes, ← hnull]
    rfl
  case isNotNull =>
    cases (Except.ok.inj h).symm
    rw [Clause.truthOn, hcol, Bool.bne_true, Truth.ofBool_eq_yes, ← hnull]
    rfl
  case isEmpty =>
    cases (Except.ok.inj h).symm
    rw [Clause.truthOn, hcol, if_neg Bool.false_ne_true, ← hdatum, hempty]
    rfl
  case isNotEmpty =>
    cases (Except.ok.inj h).symm
    rw [Clause.truthOn, hcol, if_pos rfl, ← hdatum]
    show Except.ok (!v'.isNull && !v'.equals (.str "")) = _
    rw [← hempty]
    rcases hv' with rfl | hfits
    · rfl
    · obtain ⟨a, ha⟩ := hfits.exists_datum
      rw [hfits.not_null, ha, Relation.truth, Relation.truth, Truth.ofBool_eq_yes,
        Truth.ofBool_eq_yes]
      rfl
  all_goals first | exact absurd ho (by decide) | exact absurd hrel (by decide)

end Test

/-- Whether a test looks for a text only in a field of texts. -/
def Test.searchesTexts (fields : List Field) (t : Test) : Bool :=
  !t.operator.any Operator.isSearch || (fieldNamed? fields t.fieldName).any (·.kind == .string)

namespace Filter

mutual

/-- The tests of a filter, from the left. -/
def tests : Filter → List Test
  | .node t _ members => if members.isEmpty then [t] else memberTests members

/-- The tests of the members of a group. -/
def memberTests : List (Option Filter) → List Test
  | [] => []
  | none :: ms => memberTests ms
  | some f :: ms => tests f ++ memberTests ms

end

end Filter

/-! ## Filters -/

section Filter

open Sql

variable {schema : Option String} {e : Entity} {table : Table} {r raw : Record}

/-- What filters on an entity are compiled for when its records are kept in a table. -/
def tableScope (e : Entity) (table : Table) : ClauseScope := ⟨table, e.fields, Operator.all⟩

/-- What filters on an entity are compiled for when its records are kept in a file and all members
of a group count. -/
def fileScope (e : Entity) : FilterScope := ⟨e.fields, Operator.all, true⟩

/-- A test is compiled for records if its operator is known and its condition has a form. -/
theorem ofTest_of_condition {s : FilterScope} {t : Test} {o : Operator} {field : Option Field}
    {w : Value} (ho : t.operator = some o) (hs : s.operators.contains o = true)
    (hf : fieldNamed? s.fields t.fieldName = field) (hw : t.condition field = .ok w) :
    Predicate.ofTest s t = .ok (.test t.fieldName field o w (t.folds field)) := by
  subst hf
  rw [Predicate.ofTest, ho]
  simp only [hs, if_true, hw]
  rfl

/-- A record of an entity, in the form of its fields and without moments of universal time. -/
structure IsRow (e : Entity) (r : Record) : Prop where
  coerced : ∃ raw, e.coerce raw = .ok r
  local_of_mem : ∀ f ∈ e.fields, (Record.field r f.name).isLocal = true

/-- A test selects the same records on both sides. -/
theorem accepts_test (ht : Table.ofEntity schema e = .ok table) (hr : IsRow e r) {t : Test}
    (hs : t.searchesTexts e.fields = true) {clause : Clause} {p : Predicate}
    (hc : Clause.ofTest (tableScope e table) t = .ok clause)
    (hp : Predicate.ofTest (fileScope e) t = .ok p) :
    p.accepts r = .ok (clause.truthOn r == .yes) := by
  obtain ⟨raw, hraw⟩ := hr.coerced
  obtain ⟨o, c, w, ho, hcol, hw, hc⟩ := ofTest_eq_ok hc
  simp only [tableScope] at hcol hw hc
  obtain ⟨hname, f, hf, hfmem, hfname⟩ := exists_field_of_column ht hcol
  rw [hf] at hw hc
  have hmem : Operator.all.contains o = true := by
    rw [List.contains_iff_mem]
    exact o.mem_all
  cases hp.symm.trans (ofTest_of_condition ho hmem hf hw)
  have hholds : f.Holds (Record.field r t.fieldName) := field_holds_of_coerceEntries hraw hf
  have hlocal : (Record.field r t.fieldName).isLocal = true := by
    rw [← hfname]
    exact hr.local_of_mem f hfmem
  have hcolumn : Record.field r c.name = Record.field r t.fieldName := by rw [hname]
  obtain ⟨v, hv, hv', hnull, hdatum, hsame⟩ := Field.coerce_of_holds hholds
  rw [Predicate.accepts, coerceFor, hv]
  show o.holds (t.folds (some f)) v w = _
  cases hrel : o.relation? with
  | some rel =>
      rw [Operator.clause_of_relation hrel] at hc
      exact accepts_iff_of_comparison hrel hholds hlocal hv (Test.condition_holds ho hrel hw)
        Test.kind_of_folds hcolumn hc
  | none =>
      by_cases hsearch : o.isSearch = true
      · have hkind : f.kind = .string := by
          rw [Test.searchesTexts, ho, hf] at hs
          simpa [hsearch] using hs
        rw [Operator.clause_of_search hsearch] at hc
        rw [hsame (by rw [hkind]; decide)]
        exact accepts_iff_of_search hsearch hkind hholds (Test.condition_of_search ho hsearch hw)
          hcolumn hc
      · exact accepts_iff_of_question (by simpa using hsearch) hrel hholds hv hcolumn hc

/-- What the compiled members of a group accept, if every member does what it should. -/
theorem accepts_cons {logic : Logic} {clause : Clause} {cs : List Clause} {p : Predicate}
    {ps : List Predicate} (hp : p.accepts r = .ok (clause.truthOn r == .yes))
    (hps : (Predicate.group logic ps).accepts r = .ok (Clause.truthOfAll r logic cs == .yes)) :
    (Predicate.group logic (p :: ps)).accepts r =
      .ok (Clause.truthOfAll r logic (clause :: cs) == .yes) := by
  cases logic with
  | all =>
      rw [Predicate.accepts] at hps
      rw [Predicate.accepts, Predicate.acceptsAll, hp, Clause.truthOfAll]
      show (if _ then _ else _) = Except.ok (Truth.both _ _ == Truth.yes)
      rw [Truth.both_eq_yes, hps]
      cases clause.truthOn r == Truth.yes <;> rfl
  | any =>
      rw [Predicate.accepts] at hps
      rw [Predicate.accepts, Predicate.acceptsAny, hp, Clause.truthOfAll]
      show (if _ then _ else _) = Except.ok (Truth.either _ _ == Truth.yes)
      rw [Truth.either_eq_yes, hps]
      cases clause.truthOn r == Truth.yes <;> rfl

mutual

theorem accepts_filter (ht : Table.ofEntity schema e = .ok table) (hr : IsRow e r) (f : Filter)
    (hs : f.tests.all (Test.searchesTexts e.fields) = true) {clause : Clause} {p : Predicate}
    (hc : Clause.ofFilter (tableScope e table) f = .ok clause)
    (hp : (Predicate.ofFilter (fileScope e) f).result = .ok p) :
    p.accepts r = .ok (clause.truthOn r == .yes) := by
  match f with
  | .node t logic members =>
      rw [Clause.ofFilter] at hc
      rw [Predicate.ofFilter] at hp
      rw [Filter.tests] at hs
      by_cases hm : members.isEmpty = true
      · rw [if_pos hm] at hc hp hs
        exact accepts_test ht hr (by simpa using hs) hc hp
      · rw [if_neg hm] at hc hp hs
        cases hcs : Clause.ofMembers (tableScope e table) members with
        | error fault => rw [hcs] at hc; cases hc
        | ok cs =>
            rw [hcs] at hc
            cases hc
            have hlimit : Predicate.FilterScope.limit (fileScope e) members.length =
                members.length := rfl
            simp only [hlimit, Nat.lt_irrefl, if_false, Traced.result_bind,
              Traced.result_pure] at hp
            cases hps : (Predicate.ofMembers (fileScope e) members.length members).result with
            | error fault => rw [hps] at hp; cases hp
            | ok ps =>
                rw [hps] at hp
                cases hp
                rw [Clause.truthOn_combine]
                exact accepts_members ht hr members logic (Nat.le_refl _) hs hcs hps

theorem accepts_members (ht : Table.ofEntity schema e = .ok table) (hr : IsRow e r)
    (ms : List (Option Filter)) (logic : Logic) {limit : Nat} (hlimit : ms.length ≤ limit)
    (hs : (Filter.memberTests ms).all (Test.searchesTexts e.fields) = true) {cs : List Clause}
    {ps : List Predicate} (hc : Clause.ofMembers (tableScope e table) ms = .ok cs)
    (hp : (Predicate.ofMembers (fileScope e) limit ms).result = .ok ps) :
    (Predicate.group logic ps).accepts r = .ok (Clause.truthOfAll r logic cs == .yes) := by
  match ms with
  | [] =>
      rw [Clause.ofMembers] at hc
      rw [Predicate.ofMembers] at hp
      cases hc
      cases hp
      cases logic <;> rfl
  | none :: ms =>
      rw [List.length_cons] at hlimit
      rw [Clause.ofMembers] at hc
      rw [Predicate.ofMembers, if_neg (by omega)] at hp
      rw [Filter.memberTests] at hs
      exact accepts_members ht hr ms logic (by omega) hs hc hp
  | some f :: ms =>
      rw [List.length_cons] at hlimit
      rw [Predicate.ofMembers, if_neg (by omega)] at hp
      rw [Filter.memberTests, List.all_append, Bool.and_eq_true] at hs
      simp only [Traced.result_bind, Traced.result_pure] at hp
      obtain ⟨clause, cs', hf, hrest, rfl⟩ := ofMembers_some hc
      cases hpf : (Predicate.ofFilter (fileScope e) f).result with
      | error fault => rw [hpf] at hp; cases hp
      | ok p =>
          cases hps : (Predicate.ofMembers (fileScope e) (limit - 1) ms).result with
          | error fault => rw [hpf, hps] at hp; cases hp
          | ok ps' =>
              rw [hpf, hps] at hp
              cases hp
              exact accepts_cons (accepts_filter ht hr f hs.1 hf hpf)
                (accepts_members ht hr ms logic (by omega) hs.2 hrest hps)

end

/-- The truth of the condition of a statement; without one every row is selected. -/
def conditionTruth (r : Record) (condition : Option Clause) : Truth :=
  (condition.map (Clause.truthOn r)).getD .yes

/-- A filter selects the same records in a file and in a table: on every record in the form of its
fields, the predicate answers, and it accepts the record exactly if the clause is true of it. -/
theorem selected_alike (ht : Table.ofEntity schema e = .ok table) (hr : IsRow e r)
    {f : Option Filter}
    (hs : ∀ g ∈ f, ∀ t ∈ g.tests, t.searchesTexts e.fields = true) {condition : Option Clause}
    (hc : Clause.ofFilterIfAny (tableScope e table) f = .ok condition) {p : Predicate}
    (hp : (Predicate.ofFilterIfAny (fileScope e) f).result = .ok p) :
    p.accepts r = .ok (conditionTruth r condition == .yes) := by
  cases f with
  | none =>
      cases hc
      cases hp
      rfl
  | some g =>
      obtain ⟨clause, hclause, rfl⟩ := map_eq_ok hc
      exact accepts_filter ht hr g (List.all_eq_true.mpr (hs g rfl)) hclause hp

end Filter

/-! ## An example

A search that ignores the case of letters for a text with a low line, beside a price that may be
missing. -/

section Example

open Sql

/-- Goods that have a low line and an A beside it in their name and cost more than 2, or have no
price. -/
def goodsFilter : Filter := .group .any [
  some (.group .all [
    some (.leaf (.of "Name" .contains (.str "_A") true)), none,
    some (.leaf (.of "Price" .gt (.str "2") false))]),
  some (.leaf (.of "Price" .isNull .null false))]

/-- A record of goods, as a client writes it. -/
def goodsRaw : Record := [("Name", .str "x_ay"), ("Price", .str "2.50")]

theorem selected_alike_goods :
    ∃ table r condition p, Table.ofEntity none goods = .ok table ∧ IsRow goods r ∧
      Clause.ofFilterIfAny (tableScope goods table) (some goodsFilter) = .ok condition ∧
      (Predicate.ofFilterIfAny (fileScope goods) (some goodsFilter)).result = .ok p ∧
      conditionTruth r condition = .yes ∧
      p.accepts r = .ok (conditionTruth r condition == .yes) :=
  have hr : IsRow goods [("Name", .str "x_ay"), ("Price", .decimal (.finite false 250 (-2)))] :=
    ⟨⟨goodsRaw, by rfl⟩, by decide⟩
  have hs : ∀ g ∈ some goodsFilter, ∀ t ∈ g.tests, t.searchesTexts goods.fields = true := by
    rintro g ⟨⟩
    decide
  ⟨_, _, _, _, rfl, hr, rfl, rfl, by decide +kernel, selected_alike rfl hr hs rfl rfl⟩

end Example

end Rowgate
