import Rowgate.Proofs.Query.SearchText
import Rowgate.Proofs.Request.Fields
import Rowgate.Proofs.Sql.Refused
import Rowgate.Proofs.Store.Operators

/-!
# What the filter of a search selects

The filter of a search has one part for each field that can hold what is searched (`Suits`), and one
part is enough. A part is a test or two tests between which a value has to lie, so what has to be known
is what a single test comes to (`runs_leaf`), and that a group adds nothing but its logic (`runs_group`):
it compiles whenever its members do, for a table and for a file, whether all members count or not.

What is searched is brought to the form of the field, and so is the value of the record. A day is then
compared with days, a timestamp with timestamps of its own kind, and a number with numbers
(`stands_number_iff`, `stands_day_iff`, `stands_moment_iff`), which is what `Meets` says.
-/

namespace Rowgate

open Outcome Sql

/-! ## What is searched -/

/-- The day of a moment. -/
def Moment.day : Moment → Date
  | .date d => d
  | .dateTime t => t.date

/-- The timestamp of a moment: a day is taken at its start. -/
def Moment.start : Moment → DateTime
  | .date d => ⟨d, Clock.midnight, none⟩
  | .dateTime t => t

/-- Whether a timestamp can be compared with another one and is not after it. -/
def DateTime.NotAfter (t u : DateTime) : Prop :=
  t.offset.isSome = u.offset.isSome ∧ t.moment ≤ u.moment

namespace Search

/-- Whether a field can hold what is searched. -/
def Suits (s : Search) (f : Field) : Prop :=
  match f.kind, s with
  | .string, _ => True
  | .numeric, .number _ => True
  | .numeric, .numbers _ _ => True
  | .date, .moment _ => True
  | .date, .moments _ _ => True
  | .dateTime, .moment _ => True
  | .dateTime, .moments _ _ => True
  | _, _ => False

/-- Whether the value of a field is what is searched. -/
def Meets (s : Search) (text : String) (f : Field) (v : Value) : Prop :=
  match f.kind, s with
  | .string, _ => ∃ t, v = .str t ∧ Text.lower text.toList <:+: Text.lower t.toList
  | .numeric, .number n => ∃ q, v.datum? = some (.number q) ∧ n.rational? = some q
  | .numeric, .numbers low high => ∃ q p p', v.datum? = some (.number q) ∧
      low.rational? = some p ∧ high.rational? = some p' ∧ p ≤ q ∧ q ≤ p'
  | .date, .moment m => v = .date m.day
  | .date, .moments m n =>
      ∃ d, v = .date d ∧ m.day.ordinal ≤ d.ordinal ∧ d.ordinal ≤ n.day.ordinal
  | .dateTime, .moment m => ∃ t, v = .dateTime t ∧ m.start.NotAfter t ∧ t.NotAfter m.start
  | .dateTime, .moments m n => ∃ t, v = .dateTime t ∧ m.start.NotAfter t ∧ t.NotAfter n.start
  | _, _ => False

theorem Meets.suits {s : Search} {text : String} {f : Field} {v : Value} (h : s.Meets text f v) :
    s.Suits f := by
  rw [Meets.eq_def] at h
  rw [Suits.eq_def]
  split at h <;> trivial

end Search

/-! ## Single tests -/

namespace Sql.Relation

variable {α : Type} [LinearOrder α] {a b : α}

theorem eq_holds_iff : Relation.eq.holds (some (linearly a b)) = true ↔ a = b := by
  rw [holds, beq_iff_eq, Option.some_inj, linearly_eq_iff]

theorem gte_holds_iff : Relation.gte.holds (some (linearly a b)) = true ↔ b ≤ a := by
  rw [holds, Bool.or_eq_true, beq_iff_eq, beq_iff_eq, Option.some_inj, Option.some_inj,
    linearly_eq_iff, ← linearly_swap, Ordering.swap_eq_gt, linearly_eq_lt_iff, le_iff_lt_or_eq,
    eq_comm]

theorem lte_holds_iff : Relation.lte.holds (some (linearly a b)) = true ↔ a ≤ b := by
  rw [holds, Bool.or_eq_true, beq_iff_eq, beq_iff_eq, Option.some_inj, Option.some_inj,
    linearly_eq_iff, linearly_eq_lt_iff, le_iff_lt_or_eq]

end Sql.Relation

/-- What is known of one thing in two ways is known of it. -/
theorem exists_and_exists {α : Type} {P Q R : α → Prop} (h : ∀ a b, P a → P b → a = b) :
    ((∃ a, P a ∧ Q a) ∧ ∃ a, P a ∧ R a) ↔ ∃ a, P a ∧ Q a ∧ R a := by
  constructor
  · rintro ⟨⟨a, ha, hq⟩, b, hb, hr⟩
    cases h a b ha hb
    exact ⟨a, ha, hq, hr⟩
  · rintro ⟨a, ha, hq, hr⟩
    exact ⟨⟨a, ha, hq⟩, a, ha, hr⟩

/-- Whether a value other than null stands in a relation to a value of its field. -/
def Value.Stands (rel : Relation) (v w : Value) : Prop :=
  v.isNull = false ∧ rel.holds (v.order? w) = true

section Order

variable {rel : Relation} {v w : Value}

theorem not_stands_null : ¬ Value.Stands rel .null w := fun h => Bool.noConfusion h.1

theorem Fits.rank_of_number {q : ℚ} (hv : Fits .numeric v) (hq : v.datum? = some (.number q)) :
    v.rank = [0, q] ∧ v.isLocal = true := by
  cases hv with
  | int i =>
      cases hq
      exact ⟨rfl, rfl⟩
  | decimal n c e =>
      cases hq
      exact ⟨rfl, rfl⟩

theorem stands_number_iff {p : ℚ} (hv : v = .null ∨ Fits .numeric v) (hw : Fits .numeric w)
    (hp : w.datum? = some (.number p)) : Value.Stands rel v w ↔
      ∃ q, v.datum? = some (.number q) ∧ rel.holds (some (linearly q p)) = true := by
  rcases hv with rfl | hv
  · exact iff_of_false not_stands_null (by simp [Value.datum?])
  · obtain ⟨-, q, -, -, -, hq⟩ := hv.exists_rational
    obtain ⟨hrank, hlocal⟩ := hv.rank_of_number hq
    obtain ⟨hrank', hlocal'⟩ := hw.rank_of_number hp
    rw [Value.Stands, and_iff_right hv.not_null, Value.order?, hlocal, hlocal', if_pos rfl, hrank,
      hrank', linearly_pair, hq]
    simp

theorem stands_day_iff {d : Date} (hv : v = .null ∨ Fits .date v) :
    Value.Stands rel v (.date d) ↔
      ∃ d', v = .date d' ∧ rel.holds (some (linearly d'.ordinal d.ordinal)) = true := by
  rcases hv with rfl | hv
  · exact iff_of_false not_stands_null (by simp)
  · cases hv with
    | date d' =>
        have hcast : linearly (d'.ordinal : ℚ) d.ordinal = linearly d'.ordinal d.ordinal :=
          linearly_map Nat.strictMono_cast _ _
        rw [Value.Stands, and_iff_right (by rfl), Value.order?, if_pos (by rfl), Value.rank,
          Value.rank, linearly_pair, hcast]
        simp

theorem stands_moment_iff {u : DateTime} (hrel : rel.holds none = false)
    (hv : v = .null ∨ Fits .dateTime v) :
    Value.Stands rel v (.dateTime u) ↔ ∃ t, v = .dateTime t ∧
      t.offset.isSome = u.offset.isSome ∧ rel.holds (some (linearly t.moment u.moment)) = true := by
  rcases hv with rfl | hv
  · exact iff_of_false not_stands_null (by simp)
  · cases hv with
    | dateTime t =>
        have hcast : linearly (t.moment : ℚ) u.moment = linearly t.moment u.moment :=
          linearly_map Int.cast_strictMono _ _
        have hlocal : (Value.dateTime t).isLocal = (Value.dateTime u).isLocal ↔
            t.offset.isSome = u.offset.isSome := by
          rw [Value.isLocal, Value.isLocal]
          cases t.offset <;> cases u.offset <;> simp
        rw [Value.Stands, and_iff_right (by rfl), Value.order?]
        by_cases h : t.offset.isSome = u.offset.isSome
        · rw [if_pos (hlocal.mpr h), Value.rank, Value.rank, h, linearly_pair, hcast]
          simp [h]
        -- moments of two kinds have no order, and without one no relation of a range holds
        · rw [if_neg fun h' => h (hlocal.mp h')]
          refine iff_of_false (by rw [hrel]; exact Bool.false_ne_true) ?_
          rintro ⟨_, ht, h', -⟩
          cases ht
          exact h h'

/-- Bringing a value to the form of its field once more does not move it. -/
theorem Field.order?_coerce {f : Field} {v' : Value} (hv : f.Holds v) (hc : f.coerce v = .ok v')
    (w : Value) : v'.order? w = v.order? w := by
  obtain ⟨_, hc', hholds, hnull, hdatum, hsame⟩ := Field.coerce_of_holds hv
  cases hc.symm.trans hc'
  by_cases hk : f.kind = .numeric
  -- a number may change between an integer and a decimal, but its rank is the number itself
  · rcases hv with rfl | hv
    · rw [Value.eq_null_of_isNull hnull]
    · have hv' := hholds.resolve_left fun heq => by
        rw [heq, hv.not_null] at hnull
        cases hnull
      rw [hk] at hv hv'
      obtain ⟨-, q, -, -, -, hq⟩ := hv.exists_rational
      obtain ⟨hrank, hlocal⟩ := hv.rank_of_number hq
      obtain ⟨hrank', hlocal'⟩ := hv'.rank_of_number (hdatum.trans hq)
      rw [Value.order?, Value.order?, hrank, hrank', hlocal, hlocal']
  · rw [hsame hk]

end Order

/-! ## Filters on one record -/

section Runs

variable {e : Entity} {r : Record} {f : Field} {o : Operator} {v w x : Value}

/-- What the predicate of a filter answers about a record. -/
def Answers (e : Entity) (r : Record) (g : Filter) (b : Bool) : Prop :=
  ∃ p, (Predicate.ofFilter (fileScope e) g).result = .ok p ∧ p.accepts r = .ok b

theorem Answers.eq {g : Filter} {b c : Bool} (h : Answers e r g b) (h' : Answers e r g c) :
    b = c := by
  obtain ⟨p, hp, hb⟩ := h
  obtain ⟨p', hp', hc⟩ := h'
  cases hp.symm.trans hp'
  exact Except.ok.inj (hb.symm.trans hc)

theorem Answers.true_iff {g : Filter} {b : Bool} (h : Answers e r g b) :
    Answers e r g true ↔ b = true := by
  constructor
  · intro htrue
    exact h.eq htrue
  · rintro rfl
    exact h

/-- Whether a filter is compiled for every table of an entity and for its files, whether all members of
groups count or not, and answers about a record. -/
structure Runs (e : Entity) (r : Record) (g : Filter) : Prop where
  table : ∀ schema, ∃ clause,
    Clause.ofFilter (tableScope e (Table.describing schema e)) g = .ok clause
  file : ∀ allMembers, ∃ p,
    (Predicate.ofFilter ⟨e.fields, Operator.all, allMembers⟩ g).result = .ok p
  answers : ∃ b, Answers e r g b

/-- Whether a field is one of an entity, of which a record has a value in its form. -/
structure Searchable (e : Entity) (r : Record) (f : Field) : Prop where
  named : f.name.isEmpty = false
  known : fieldNamed? e.fields f.name = some f
  holds : f.Holds (Record.field r f.name)

theorem Searchable.holds_of_kind {k : FieldKind} (h : Searchable e r f) (hk : f.kind = k) :
    Record.field r f.name = .null ∨ Fits k (Record.field r f.name) := by
  rw [← hk]
  exact h.holds

section Compiled

variable {t : Test} (ho : t.operator = some o) (hf : fieldNamed? e.fields t.fieldName = some f)
  (hw : t.condition (some f) = .ok w)

include ho hf hw

theorem ofTest_file (allMembers : Bool) :
    Predicate.ofTest ⟨e.fields, Operator.all, allMembers⟩ t =
      .ok (.test t.fieldName (some f) o w (t.folds (some f))) :=
  ofTest_of_condition ho (List.contains_iff_mem.mpr o.mem_all) hf hw

theorem exists_ofTest_table (schema : Option String) :
    ∃ clause, Clause.ofTest (tableScope e (Table.describing schema e)) t = .ok clause := by
  have hmem : Operator.all.contains o = true := List.contains_iff_mem.mpr o.mem_all
  have hcolumn : (Table.describing schema e).column? t.fieldName ≠ none := fun h => by
    rw [Test.column?_describing_eq_none_iff, hf] at h
    cases h
  obtain ⟨c, hcolumn⟩ := Option.ne_none_iff_exists'.mp hcolumn
  obtain ⟨clause, hclause⟩ := Operator.exists_clause ho hw c (t.folds (some f))
  refine ⟨clause, ?_⟩
  rw [Clause.ofTest, ho]
  simp only [tableScope, hmem, if_true, hcolumn, hf, hw]
  exact hclause

/-- A test with a condition runs and answers what its operator does. -/
theorem runs_leaf {b : Bool} {v' : Value} (hc : f.coerce (Record.field r t.fieldName) = .ok v')
    (hb : o.holds (t.folds (some f)) v' w = .ok b) :
    Runs e r (.leaf t) ∧ Answers e r (.leaf t) b := by
  have hfile := ofTest_file ho hf hw
  have hanswers : Answers e r (.leaf t) b := by
    refine ⟨_, hfile true, ?_⟩
    rw [Predicate.accepts, coerceFor, hc]
    exact hb
  exact ⟨⟨exists_ofTest_table ho hf hw, fun allMembers => ⟨_, hfile allMembers⟩, b, hanswers⟩,
    hanswers⟩

end Compiled

/-! ### Groups -/

theorem exists_clauses {s : ClauseScope} {gs : List Filter}
    (h : ∀ g ∈ gs, ∃ clause, Clause.ofFilter s g = .ok clause) :
    ∃ clauses, Clause.ofMembers s (gs.map some) = .ok clauses := by
  induction gs with
  | nil => exact ⟨[], rfl⟩
  | cons g gs ih =>
      obtain ⟨⟨clause, hclause⟩, hgs⟩ := List.forall_mem_cons.mp h
      obtain ⟨clauses, hclauses⟩ := ih hgs
      refine ⟨clause :: clauses, ?_⟩
      rw [List.map_cons, Clause.ofMembers, hclause, hclauses]
      rfl

/-- The members of a group are compiled one by one, as far as they count. -/
theorem exists_predicates {s : FilterScope} {gs : List Filter} (limit : Nat)
    (h : ∀ g ∈ gs, ∃ p, (Predicate.ofFilter s g).result = .ok p) :
    ∃ ps, (Predicate.ofMembers s limit (gs.map some)).result = .ok ps ∧
      List.Forall₂ (fun g p => (Predicate.ofFilter s g).result = .ok p) (gs.take limit) ps := by
  induction gs generalizing limit with
  | nil =>
      rw [List.take_nil]
      exact ⟨[], rfl, .nil⟩
  | cons g gs ih =>
      obtain ⟨⟨p, hp⟩, hgs⟩ := List.forall_mem_cons.mp h
      rw [List.map_cons, Predicate.ofMembers]
      cases limit with
      | zero => exact ⟨[], rfl, .nil⟩
      | succ limit =>
          obtain ⟨ps, hps, hrel⟩ := ih limit hgs
          refine ⟨p :: ps, ?_, .cons hp hrel⟩
          simp [hp, hps, Except.bind]

theorem acceptsAny_of_answers {gs : List Filter} {ps : List Predicate}
    (h : List.Forall₂ (fun g p => (Predicate.ofFilter (fileScope e) g).result = .ok p) gs ps)
    (hanswers : ∀ g ∈ gs, ∃ b, Answers e r g b) :
    ∃ b, Predicate.acceptsAny r ps = .ok b ∧ (b = true ↔ ∃ g ∈ gs, Answers e r g true) := by
  induction h with
  | nil => exact ⟨false, rfl, by simp⟩
  | @cons g p gs ps hp _ ih =>
      obtain ⟨⟨b, hb⟩, hgs⟩ := List.forall_mem_cons.mp hanswers
      obtain ⟨b', hb', hiff⟩ := ih hgs
      obtain ⟨_, hp', haccepts⟩ := id hb
      cases hp.symm.trans hp'
      rw [Predicate.acceptsAny, haccepts]
      cases b with
      | true => exact ⟨true, rfl, iff_of_true rfl ⟨g, List.mem_cons_self, hb⟩⟩
      | false =>
          refine ⟨b', hb', hiff.trans ?_⟩
          rw [List.exists_mem_cons_iff]
          exact (or_iff_right fun htrue => Bool.false_ne_true (hb.eq htrue)).symm

theorem acceptsAll_of_answers {gs : List Filter} {ps : List Predicate}
    (h : List.Forall₂ (fun g p => (Predicate.ofFilter (fileScope e) g).result = .ok p) gs ps)
    (hanswers : ∀ g ∈ gs, ∃ b, Answers e r g b) :
    ∃ b, Predicate.acceptsAll r ps = .ok b ∧ (b = true ↔ ∀ g ∈ gs, Answers e r g true) := by
  induction h with
  | nil => exact ⟨true, rfl, by simp⟩
  | @cons g p gs ps hp _ ih =>
      obtain ⟨⟨b, hb⟩, hgs⟩ := List.forall_mem_cons.mp hanswers
      obtain ⟨b', hb', hiff⟩ := ih hgs
      obtain ⟨_, hp', haccepts⟩ := id hb
      cases hp.symm.trans hp'
      rw [Predicate.acceptsAll, haccepts]
      cases b with
      | true =>
          refine ⟨b', hb', hiff.trans ?_⟩
          rw [List.forall_mem_cons]
          exact (and_iff_right hb).symm
      | false =>
          refine ⟨false, rfl, iff_of_false Bool.false_ne_true fun htrue => ?_⟩
          exact Bool.false_ne_true (hb.eq (htrue g List.mem_cons_self))

/-- What a logic makes of the members of a group. -/
def Logic.Holds (logic : Logic) (P : Filter → Prop) (gs : List Filter) : Prop :=
  match logic with
  | .all => ∀ g ∈ gs, P g
  | .any => ∃ g ∈ gs, P g

/-- A group runs if its members do, and answers what its logic makes of their answers. -/
theorem runs_group (logic : Logic) {gs : List Filter} (hne : gs ≠ []) (h : ∀ g ∈ gs, Runs e r g) :
    Runs e r (.group logic (gs.map some)) ∧
      (Answers e r (.group logic (gs.map some)) true ↔
        logic.Holds (Answers e r · true) gs) := by
  have hne' : gs.map some ≠ [] := fun heq => hne (List.map_eq_nil_iff.mp heq)
  have hfile : ∀ allMembers, ∃ ps,
      (Predicate.ofFilter ⟨e.fields, Operator.all, allMembers⟩ (.group logic (gs.map some))).result =
          .ok (.group logic ps) ∧
        (allMembers = true → List.Forall₂
          (fun g p => (Predicate.ofFilter (fileScope e) g).result = .ok p) gs ps) := by
    intro allMembers
    let s : FilterScope := ⟨e.fields, Operator.all, allMembers⟩
    obtain ⟨ps, hps, hrel⟩ := exists_predicates (s := s) (Predicate.FilterScope.limit s _)
      fun g hg => (h g hg).file allMembers
    refine ⟨ps, ?_, ?_⟩
    · rw [Filter.group, Predicate.result_ofFilter_group _ _ hne', hps]
      rfl
    · rintro rfl
      rwa [show Predicate.FilterScope.limit s (gs.map some).length = gs.length from List.length_map _,
        List.take_length] at hrel
  -- where not all members count, the group still compiles, but its answer is another one
  obtain ⟨ps, hps, hrel⟩ := hfile true
  have hanswer : ∃ b, Predicate.accepts r (.group logic ps) = .ok b ∧
      (b = true ↔ logic.Holds (Answers e r · true) gs) := by
    have hanswers := fun g hg => (h g hg).answers
    cases logic with
    | all => exact acceptsAll_of_answers (hrel rfl) hanswers
    | any => exact acceptsAny_of_answers (hrel rfl) hanswers
  obtain ⟨b, hb, hiff⟩ := hanswer
  have hanswers : Answers e r (.group logic (gs.map some)) b := ⟨_, hps, hb⟩
  refine ⟨⟨fun schema => ?_, fun allMembers => ?_, b, hanswers⟩, ?_⟩
  · obtain ⟨clauses, hclauses⟩ := exists_clauses fun g hg => (h g hg).table schema
    refine ⟨Clause.combine logic clauses, ?_⟩
    rw [Filter.group, Clause.ofFilter, if_neg (by simpa using hne), hclauses]
    rfl
  · obtain ⟨ps', hps', -⟩ := hfile allMembers
    exact ⟨_, hps'⟩
  · rw [hanswers.true_iff, hiff]

/-! ## Parts of the filter of a search -/

theorem condition_of_relation {rel : Relation} {t : Test} (ho : t.operator = some o)
    (hrel : o.relation? = some rel) (hx : t.value.isNull = false) (field : Option Field) :
    t.condition field = t.coerced field := by
  rw [Test.condition, ho, hx]
  cases o <;> cases hrel <;> rfl

/-- A test that compares a field with a value that has its form. -/
theorem runs_comparison {rel : Relation} (hrel : o.relation? = some rel) (h : Searchable e r f)
    (hk : f.kind ≠ .string) (hx : x.isNull = false) (hw : f.coerce x = .ok w) :
    Runs e r (.leaf (.of f.name o x false)) ∧
      (Answers e r (.leaf (.of f.name o x false)) true ↔
        Value.Stands rel (Record.field r f.name) w) := by
  have hcondition : (Test.of f.name o x false).condition (some f) = .ok w := by
    rw [condition_of_relation rfl hrel hx, Test.coerced, Test.of, coerceFor, hw]
    rfl
  obtain ⟨v', hv', hholds, hnull, -⟩ := Field.coerce_of_holds h.holds
  have hfits : Fits f.kind w := by
    rw [Field.coerce_of_not_null hx] at hw
    exact Field.coerceSome_fits hw
  have hanswer : ∃ b, o.holds false v' w = .ok b ∧
      (b = true ↔ Value.Stands rel (Record.field r f.name) w) := by
    rw [Value.Stands, ← Field.order?_coerce h.holds hv', ← hnull]
    rcases hholds with rfl | hv
    · refine ⟨false, ?_, iff_of_false Bool.false_ne_true not_stands_null⟩
      exact (Operator.holds_null (by cases o <;> first | rfl | cases hrel) false w).1
    · refine ⟨_, hv.holds_eq hrel hfits false, ?_⟩
      rw [Value.folded_of_not_string hv hk, Value.folded_of_not_string hfits hk,
        and_iff_right hv.not_null]
  obtain ⟨b, hb, hiff⟩ := hanswer
  obtain ⟨hruns, hanswers⟩ := runs_leaf rfl h.known hcondition hv' hb
  exact ⟨hruns, hanswers.true_iff.trans hiff⟩

theorem exists_equality (h : Searchable e r f) (hk : f.kind ≠ .string) (hx : x.isNull = false)
    (hw : f.coerce x = .ok w) :
    ∃ g, Search.testOf f .eq x false = .ok g ∧ Runs e r g ∧
      (Answers e r g true ↔ Value.Stands .eq (Record.field r f.name) w) := by
  refine ⟨_, ?_, runs_comparison (o := .eq) rfl h hk hx hw⟩
  rw [Search.testOf, h.named]
  rfl

theorem exists_range {y w' : Value} (h : Searchable e r f) (hk : f.kind ≠ .string)
    (hx : x.isNull = false) (hw : f.coerce x = .ok w) (hy : y.isNull = false)
    (hw' : f.coerce y = .ok w') :
    ∃ g, Search.rangeOf f x y = .ok g ∧ Runs e r g ∧
      (Answers e r g true ↔ Value.Stands .gte (Record.field r f.name) w ∧
        Value.Stands .lte (Record.field r f.name) w') := by
  obtain ⟨hlower, hlower_iff⟩ := runs_comparison (o := .gte) rfl h hk hx hw
  obtain ⟨hupper, hupper_iff⟩ := runs_comparison (o := .lte) rfl h hk hy hw'
  let bounds : List Filter := [.leaf (.of f.name .gte x false), .leaf (.of f.name .lte y false)]
  have hbounds : ∀ g ∈ bounds, Runs e r g := by simp [bounds, hlower, hupper]
  obtain ⟨hruns, hiff⟩ := runs_group .all (List.cons_ne_nil _ _) hbounds
  refine ⟨_, ?_, hruns, ?_⟩
  · rw [Search.rangeOf, Filter.between, h.named, hx, hy]
    rfl
  · rw [hiff, Logic.Holds, ← hlower_iff, ← hupper_iff]
    simp

theorem exists_occurrence (text : String) (h : Searchable e r f) (hk : f.kind = .string) :
    ∃ g, Search.testOf f .contains (.str text) true = .ok g ∧ Runs e r g ∧
      (Answers e r g true ↔ ∃ t, Record.field r f.name = .str t ∧
        Text.lower text.toList <:+: Text.lower t.toList) := by
  have hfolds : (Test.of f.name .contains (.str text) true).folds (some f) = true := by
    rw [Test.folds, isTextual, hk]
    rfl
  obtain ⟨v', hv', -, -, -, hsame⟩ := Field.coerce_of_holds h.holds
  have hanswer : ∃ b, Operator.contains.holds true v' (.str text) = .ok b ∧ (b = true ↔
      ∃ t, Record.field r f.name = .str t ∧ Text.lower text.toList <:+: Text.lower t.toList) := by
    rw [hsame (hk.trans_ne (by decide))]
    rcases h.holds_of_kind hk with hnull | hfits
    · rw [hnull]
      refine ⟨false, rfl, iff_of_false Bool.false_ne_true ?_⟩
      rintro ⟨t, ht, -⟩
      cases ht
    · generalize Record.field r f.name = v at hfits
      cases hfits with
      | str t =>
          refine ⟨_, Operator.holds_of_isSearch rfl true t text, ?_⟩
          rw [Operator.matchesText_iff]
          simp [Operator.Finds, Text.seen]
  obtain ⟨b, hb, hiff⟩ := hanswer
  have hcondition : (Test.of f.name .contains (.str text) true).condition (some f) =
      .ok (.str text) := rfl
  rw [← hfolds] at hb
  obtain ⟨hruns, hanswers⟩ := runs_leaf rfl h.known hcondition hv' hb
  refine ⟨_, ?_, hruns, hanswers.true_iff.trans hiff⟩
  rw [Search.testOf, h.named]
  rfl

end Runs

/-! ## The filter of a search -/

namespace Search

variable {e : Entity} {r : Record} {f : Field} {s : Search}

/-- Whether the numbers of a search are finite. -/
def Sound : Search → Prop
  | .number n => ∃ p, n.rational? = some p
  | .numbers low high => (∃ p, low.rational? = some p) ∧ ∃ p, high.rational? = some p
  | _ => True

theorem rational?_of_number? {cs : List Char} {n : Decimal} (h : number? cs = some n) :
    ∃ p, n.rational? = some p := by
  obtain ⟨-, hfinite⟩ := Option.filter_eq_some_iff.mp h
  cases n with
  | finite n c e => exact ⟨_, rfl⟩
  | infinite n => cases hfinite
  | nan n s p => cases hfinite

theorem sound_single (cs : List Char) : (single cs).Sound := by
  rw [single]
  split
  · trivial
  · split
    · next hn => exact rational?_of_number? hn
    · trivial

theorem sound_range? {a b : List Char} (h : range? a b = some s) : s.Sound := by
  rw [range?] at h
  split at h
  · cases h
    trivial
  · split at h
    · next m n hm hn =>
        cases h
        have hm' := rational?_of_number? hm
        have hn' := rational?_of_number? hn
        constructor
        · rw [smaller]
          split <;> assumption
        · rw [larger]
          split <;> assumption
    · cases h

/-- The numbers that are found in a text are finite. -/
theorem sound_ofText (text : String) : (ofText text).Sound := by
  rw [ofText]
  split
  · next a b _ =>
      cases hrange : range? a b with
      | none => exact sound_single _
      | some s => exact sound_range? hrange
  · exact sound_single _

/-- A field of numbers takes a finite number, however it is written. -/
theorem coerce_decimal {n : Decimal} {p : ℚ} (hk : f.kind = .numeric) (hn : n.rational? = some p) :
    ∃ w, f.coerce (.decimal n) = .ok w ∧ Fits .numeric w ∧ w.datum? = some (.number p) := by
  cases n with
  | finite n c e =>
      have hfits : Fits f.kind (.decimal (.finite n c e)) := by
        rw [hk]
        exact .decimal n c e
      obtain ⟨w, hw, hfits', hdatum, -⟩ := Field.coerceSome_of_fits hfits
      rw [hk] at hfits'
      refine ⟨w, by rw [Field.coerce_of_not_null rfl, hw], hfits', ?_⟩
      rw [hdatum, Value.datum?, hn]
      rfl
  | infinite n => cases hn
  | nan n s p => cases hn

theorem coerce_day (hk : f.kind = .date) (m : Moment) : f.coerce m.toValue = .ok (.date m.day) := by
  cases m <;> rw [Field.coerce_of_not_null (by rfl), Field.coerceSome, hk] <;> rfl

theorem coerce_start (hk : f.kind = .dateTime) (m : Moment) :
    f.coerce m.toValue = .ok (.dateTime m.start) := by
  cases m <;> rw [Field.coerce_of_not_null (by rfl), Field.coerceSome, hk] <;> rfl

theorem isNull_toValue (m : Moment) : m.toValue.isNull = false := by
  cases m <;> rfl

/-! ### The part of a field -/

/-- What a field adds to the filter of a search: nothing if it cannot hold what is searched, else a
filter that asks for it. -/
inductive PartOf (s : Search) (text : String) (e : Entity) (r : Record) (f : Field) : Prop
  | none (hsuits : ¬ s.Suits f) (h : fragment s text f = .ok none)
  | some {g : Filter} (hsuits : s.Suits f) (h : fragment s text f = .ok (some g))
      (hruns : Runs e r g) (hiff : Answers e r g true ↔ s.Meets text f (Record.field r f.name))

variable {text : String}

theorem PartOf.of_part {part : Except Fault Filter} {Q : Prop} (hsuits : s.Suits f)
    (hfragment : fragment s text f = part.map Option.some)
    (h : ∃ g, part = .ok g ∧ Runs e r g ∧ (Answers e r g true ↔ Q))
    (hmeets : Q ↔ s.Meets text f (Record.field r f.name)) : s.PartOf text e r f := by
  obtain ⟨g, rfl, hruns, hiff⟩ := h
  exact .some hsuits hfragment hruns (hiff.trans hmeets)

theorem partOf_text (h : Searchable e r f) (hk : f.kind = .string) : s.PartOf text e r f :=
  .of_part (by simp [Suits, hk]) (by simp [fragment, hk]) (exists_occurrence text h hk)
    (by simp [Meets, hk])

theorem partOf_number (h : Searchable e r f) (hk : f.kind = .numeric) (hs : s.Sound) :
    s.PartOf text e r f := by
  have hkind : f.kind ≠ .string := hk.trans_ne (by decide)
  have hholds := h.holds_of_kind hk
  cases s with
  | number n =>
      obtain ⟨p, hp⟩ := hs
      obtain ⟨w, hw, hfits, hdatum⟩ := coerce_decimal hk hp
      refine .of_part (by simp [Suits, hk]) (by simp [fragment, hk])
        (exists_equality h hkind rfl hw) ?_
      rw [stands_number_iff hholds hfits hdatum]
      simp [Meets, hk, hp, Relation.eq_holds_iff]
  | numbers low high =>
      obtain ⟨⟨p, hp⟩, p', hp'⟩ := hs
      obtain ⟨w, hw, hfits, hdatum⟩ := coerce_decimal hk hp
      obtain ⟨w', hw', hfits', hdatum'⟩ := coerce_decimal hk hp'
      refine .of_part (by simp [Suits, hk]) (by simp [fragment, hk])
        (exists_range h hkind rfl hw rfl hw') ?_
      rw [stands_number_iff hholds hfits hdatum, stands_number_iff hholds hfits' hdatum']
      simp only [Meets, hk, hp, hp', Relation.gte_holds_iff, Relation.lte_holds_iff]
      rw [exists_and_exists fun a b ha hb => by simpa using ha.symm.trans hb]
      simp
  | _ => exact .none (by simp [Suits, hk]) (by simp [fragment, hk])

theorem partOf_day (h : Searchable e r f) (hk : f.kind = .date) : s.PartOf text e r f := by
  have hkind : f.kind ≠ .string := hk.trans_ne (by decide)
  have hholds := h.holds_of_kind hk
  cases s with
  | moment m =>
      refine .of_part (by simp [Suits, hk]) (by simp [fragment, hk])
        (exists_equality h hkind (isNull_toValue m) (coerce_day hk m)) ?_
      rw [stands_day_iff hholds]
      simp only [Meets, hk, Relation.eq_holds_iff]
      constructor
      · rintro ⟨d, hd, heq⟩
        rw [hd, Date.ordinal_injective heq]
      · intro hd
        exact ⟨m.day, hd, rfl⟩
  | moments m n =>
      refine .of_part (by simp [Suits, hk]) (by simp [fragment, hk])
        (exists_range h hkind (isNull_toValue m) (coerce_day hk m) (isNull_toValue n)
          (coerce_day hk n)) ?_
      rw [stands_day_iff hholds, stands_day_iff hholds]
      simp only [Meets, hk, Relation.gte_holds_iff, Relation.lte_holds_iff]
      exact exists_and_exists fun a b ha hb => by simpa using ha.symm.trans hb
  | _ => exact .none (by simp [Suits, hk]) (by simp [fragment, hk])

theorem partOf_moment (h : Searchable e r f) (hk : f.kind = .dateTime) : s.PartOf text e r f := by
  have hkind : f.kind ≠ .string := hk.trans_ne (by decide)
  have hholds := h.holds_of_kind hk
  cases s with
  | moment m =>
      refine .of_part (by simp [Suits, hk]) (by simp [fragment, hk])
        (exists_equality h hkind (isNull_toValue m) (coerce_start hk m)) ?_
      rw [stands_moment_iff rfl hholds]
      simp only [Meets, hk, Relation.eq_holds_iff, DateTime.NotAfter]
      refine exists_congr fun t => and_congr_right fun _ => ?_
      constructor
      · rintro ⟨hoffset, heq⟩
        exact ⟨⟨hoffset.symm, heq.ge⟩, hoffset, heq.le⟩
      · rintro ⟨⟨-, hge⟩, hoffset, hle⟩
        exact ⟨hoffset, le_antisymm hle hge⟩
  | moments m n =>
      refine .of_part (by simp [Suits, hk]) (by simp [fragment, hk])
        (exists_range h hkind (isNull_toValue m) (coerce_start hk m) (isNull_toValue n)
          (coerce_start hk n)) ?_
      rw [stands_moment_iff rfl hholds, stands_moment_iff rfl hholds]
      simp only [Meets, hk, Relation.gte_holds_iff, Relation.lte_holds_iff, DateTime.NotAfter]
      rw [exists_and_exists fun a b ha hb => by simpa using ha.symm.trans hb]
      simp only [eq_comm]
  | _ => exact .none (by simp [Suits, hk]) (by simp [fragment, hk])

theorem partOf (h : Searchable e r f) (hs : s.Sound) (text : String) : s.PartOf text e r f := by
  cases hk : f.kind with
  | string => exact partOf_text h hk
  | numeric => exact partOf_number h hk hs
  | date => exact partOf_day h hk
  | dateTime => exact partOf_moment h hk
  | time => exact .none (by simp [Suits, hk]) (by simp [fragment, hk])
  | byteArray => exact .none (by simp [Suits, hk]) (by simp [fragment, hk])

/-! ### All parts -/

/-- The parts of all fields. -/
theorem exists_fragments (hs : s.Sound) (text : String) {fs : List Field}
    (h : ∀ f ∈ fs, Searchable e r f) :
    ∃ gs, fragments s text fs = .ok gs ∧ (gs = [] ↔ ∀ f ∈ fs, ¬ s.Suits f) ∧
      (∀ g ∈ gs, Runs e r g) ∧
      ((∃ g ∈ gs, Answers e r g true) ↔ ∃ f ∈ fs, s.Meets text f (Record.field r f.name)) := by
  induction fs with
  | nil => exact ⟨[], rfl, by simp, by simp, by simp⟩
  | cons f fs ih =>
      obtain ⟨hf, hfs⟩ := List.forall_mem_cons.mp h
      obtain ⟨gs, hgs, hnil, hruns, hiff⟩ := ih hfs
      rcases partOf hf hs text with ⟨hsuits, hpart⟩ | ⟨hsuits, hpart, hrunsPart, hiffPart⟩
      · have hmeets : ¬ s.Meets text f (Record.field r f.name) := fun hm => hsuits hm.suits
        refine ⟨gs, ?_, ?_, hruns, ?_⟩
        · rw [fragments, hpart, hgs]
          rfl
        · rw [hnil, List.forall_mem_cons, and_iff_right hsuits]
        · rw [hiff, List.exists_mem_cons_iff, or_iff_right hmeets]
      · next g =>
          refine ⟨g :: gs, ?_, ?_, List.forall_mem_cons.mpr ⟨hrunsPart, hruns⟩, ?_⟩
          · rw [fragments, hpart, hgs]
            rfl
          · exact iff_of_false (List.cons_ne_nil g gs) fun hall => hall f List.mem_cons_self hsuits
          · rw [List.exists_mem_cons_iff, List.exists_mem_cons_iff, hiffPart, hiff]

/-- One of some filters is enough. -/
theorem anyOf_spec {gs : List Filter} (h : ∀ g ∈ gs, Runs e r g) :
    (anyOf gs = none ↔ gs = []) ∧ ∀ g ∈ anyOf gs, Runs e r g ∧
      (Answers e r g true ↔ ∃ g ∈ gs, Answers e r g true) := by
  match gs with
  | [] => exact ⟨iff_of_true rfl rfl, fun g hg => nomatch hg⟩
  | [g] =>
      refine ⟨iff_of_false (Option.some_ne_none g) (List.cons_ne_nil g []), fun g' hg' => ?_⟩
      cases hg'
      exact ⟨h g List.mem_cons_self, by simp⟩
  | g :: g' :: gs =>
      refine ⟨iff_of_false (Option.some_ne_none _) (List.cons_ne_nil g _), fun whole hwhole => ?_⟩
      cases hwhole
      exact runs_group .any (List.cons_ne_nil g _) h

/-- Names that are not empty and differ from each other make up the columns of a table. -/
theorem columnFault?_eq_none {taken : List String} {columns : List Column}
    (hnames : (columns.map (·.name)).Nodup)
    (hnamed : ∀ c ∈ columns, c.name.isEmpty = false ∧ c.name ∉ taken) :
    Table.columnFault? taken columns = none := by
  induction columns generalizing taken with
  | nil => rfl
  | cons c cs ih =>
      obtain ⟨⟨hempty, htaken⟩, hcs⟩ := List.forall_mem_cons.mp hnamed
      obtain ⟨hfresh, hnodup⟩ := List.nodup_cons.mp hnames
      have hcontains : taken.contains c.name = false := by simpa using htaken
      rw [Table.columnFault?, hempty, hcontains, if_neg Bool.false_ne_true,
        if_neg Bool.false_ne_true]
      refine ih hnodup fun c' hc' => ⟨(hcs c' hc').1, fun hmem => ?_⟩
      rcases List.mem_cons.mp hmem with heq | hmem
      · exact hfresh (List.mem_map.mpr ⟨c', hc', heq⟩)
      · exact (hcs c' hc').2 hmem

theorem ofEntity_eq_ok (schema : Option String) (hnames : (e.fields.map (·.name)).Nodup)
    (hnamed : ∀ f ∈ e.fields, f.name.isEmpty = false) :
    Table.ofEntity schema e = .ok (Table.describing schema e) := by
  have hfault : Table.columnFault? [] (Table.describing schema e).columns = none := by
    refine columnFault?_eq_none (by rwa [Table.describing, List.map_map]) fun c hc => ?_
    obtain ⟨f, hf, rfl⟩ := List.mem_map.mp hc
    exact ⟨hnamed f hf, List.not_mem_nil⟩
  rw [Table.ofEntity]
  simp only [hfault]

/-- A search has no filter exactly if its text is blank or no field can hold what is searched. Otherwise
its filter is compiled for a table, and for a file whether all members of groups count or not; and where
all of them count it accepts a record in the form of the fields exactly if the value of one field is what
is searched: a text that contains the text of the search, whatever the case of letters, a number between
the two numbers or equal to the one, or a day or a timestamp between the two moments or equal to the one,
both in the form of the field. -/
theorem filterIn_selects (schema : Option String) {raw : Record}
    (hnames : (e.fields.map (·.name)).Nodup) (hnamed : ∀ f ∈ e.fields, f.name ≠ "")
    (hr : e.coerce raw = .ok r) (text : String) :
    ∃ found, filterIn text e.fields = .ok found ∧
      (found = none ↔
        Text.trim text.toList = [] ∨ ∀ f ∈ e.fields, ¬ (ofText text).Suits f) ∧
      ∀ filter ∈ found, ∃ table, Table.ofEntity schema e = .ok table ∧
        (∃ clause, Clause.ofFilter (tableScope e table) filter = .ok clause) ∧
        (∀ allMembers, ∃ p,
          (Predicate.ofFilter ⟨e.fields, Operator.all, allMembers⟩ filter).result = .ok p) ∧
        ∃ p b, (Predicate.ofFilter (fileScope e) filter).result = .ok p ∧ p.accepts r = .ok b ∧
          (b = true ↔ ∃ f ∈ e.fields, (ofText text).Meets text f (Record.field r f.name)) := by
  have hempty : ∀ f ∈ e.fields, f.name.isEmpty = false := fun f hf => by simpa using hnamed f hf
  have hsearchable : ∀ f ∈ e.fields, Searchable e r f := fun f hf =>
    have hknown := Entity.fieldNamed?_of_mem hnames hf
    ⟨hempty f hf, hknown, field_holds_of_coerceEntries hr hknown⟩
  obtain ⟨gs, hgs, hnil, hruns, hiff⟩ := exists_fragments (sound_ofText text) text hsearchable
  obtain ⟨hnone, hsome⟩ := anyOf_spec hruns
  by_cases hblank : Text.trim text.toList = []
  · refine ⟨none, by rw [filterIn, hblank]; rfl, iff_of_true rfl (Or.inl hblank), ?_⟩
    exact fun filter hfilter => nomatch hfilter
  · refine ⟨anyOf gs, ?_, ?_, fun filter hfilter => ?_⟩
    · rw [filterIn, if_neg (by simpa using hblank), hgs]
      rfl
    · rw [hnone, hnil]
      exact (or_iff_right hblank).symm
    · obtain ⟨hfilterRuns, hanswers⟩ := hsome filter hfilter
      obtain ⟨b, p, hp, hb⟩ := hfilterRuns.answers
      refine ⟨_, ofEntity_eq_ok schema hnames hempty, hfilterRuns.table schema, hfilterRuns.file, p, b,
        hp, hb, ?_⟩
      rw [← hiff, ← hanswers, Answers.true_iff ⟨p, hp, hb⟩]

/-- The number that is searched is found in the price, though the name does not have its digits. -/
theorem filterIn_selects_price :
    ofText "2.50" = .number (.finite false 250 (-2)) ∧
    goods.coerce [("Name", .str "Oil"), ("Price", .str "2.5")] =
      .ok [("Name", .str "Oil"), ("Price", .decimal (.finite false 25 (-1)))] ∧
    ∃ filter p, filterIn "2.50" goods.fields = .ok (some filter) ∧
      (Predicate.ofFilter (fileScope goods) filter).result = .ok p ∧
      p.accepts [("Name", .str "Oil"), ("Price", .decimal (.finite false 25 (-1)))] = .ok true := by
  have hprice : (Decimal.finite false 250 (-2)).text = "2.50" := by decide +kernel
  have hsearch : ofText "2.50" = .number (.finite false 250 (-2)) := by
    rw [← hprice]
    exact ofText_decimal (by decide)
  have hr : goods.coerce [("Name", .str "Oil"), ("Price", .str "2.5")] =
      .ok [("Name", .str "Oil"), ("Price", .decimal (.finite false 25 (-1)))] := by rfl
  obtain ⟨found, hfound, hnone, hsome⟩ :=
    filterIn_selects none (by decide) (by decide) hr "2.50"
  have hfields : found ≠ none := by
    rw [Ne, hnone, hsearch]
    rintro (hblank | hsuits)
    · exact absurd hblank (by decide +kernel)
    · exact hsuits _ List.mem_cons_self trivial
  obtain ⟨filter, rfl⟩ := Option.ne_none_iff_exists'.mp hfields
  obtain ⟨-, -, -, -, p, b, hp, hb, hiff⟩ := hsome filter rfl
  have htrue : b = true := by
    rw [hiff, hsearch]
    exact ⟨_, List.mem_cons_of_mem _ List.mem_cons_self, 5 / 2, by decide +kernel, by decide +kernel⟩
  rw [htrue] at hb
  exact ⟨hsearch, hr, filter, p, hfound, hp, hb⟩

end Search

end Rowgate
