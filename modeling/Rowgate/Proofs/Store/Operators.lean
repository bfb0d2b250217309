import Rowgate.Proofs.Sql.Agreement
import Rowgate.Proofs.Store.KeyOrder
import Rowgate.Proofs.Value.Literal

/-!
# The laws of the operators

The operators that compare values are six views of one order: two values of a field have the order of
their ranks, unless one is a moment with an offset and the other is not, when they have none
(`Value.order?`). So whatever relates two operators is a fact about `Relation.holds` and the order,
and what relates three values is a fact about ranks. The operators that look for a text are about
texts, which every value has unless a long integer lies in it.
-/

namespace Rowgate

open Outcome Sql

/-! ## The order of two values -/

/-- The order of two values of one field, if they have one. -/
def Value.order? (v w : Value) : Option Ordering :=
  if v.isLocal = w.isLocal then some (linearly v.rank w.rank) else none

namespace Fits

variable {k : FieldKind} {v w : Value}

theorem isLocal_of_rank_eq (hv : Fits k v) (hw : Fits k w) (h : v.rank = w.rank) :
    v.isLocal = w.isLocal := by
  have hflag : ∀ o p : Option Offset,
      ((if o.isSome then 1 else 0 : ℚ) = if p.isSome then 1 else 0) → o.isNone = p.isNone := by
    intro o p heq
    cases o <;> cases p <;> simp at heq ⊢
  cases hv with
  | dateTime a =>
      cases hw with
      | dateTime b => exact hflag a.offset b.offset (List.cons.inj h).1
  | time a =>
      cases hw with
      | time b => exact hflag a.offset b.offset (List.cons.inj h).1
  | _ => cases hw <;> rfl

theorem equals_eq (hv : Fits k v) (hw : Fits k w) : v.equals w = (v.order? w == some .eq) := by
  have hranked := (hv.ranked hw).1
  rw [Bool.eq_iff_iff, hranked, beq_iff_eq, Value.order?]
  split
  · exact (Option.some_inj).symm
  · next hlocal =>
      refine iff_of_false (fun heq => hlocal ?_) (by simp)
      exact isLocal_of_rank_eq hv hw (linearly_eq_iff.mp heq)

/-- Whether two values can be compared, which only moments refuse. -/
theorem compare_eq_ok_or (hv : Fits k v) (hw : Fits k w) :
    (v.isLocal = w.isLocal ∧ ∃ o, v.compare w = .ok o) ∨
      (v.isLocal ≠ w.isLocal ∧ v.compare w = .error .unlike) := by
  have hnumbers : ∀ {v w}, Fits .numeric v → Fits .numeric w → ∃ o, v.compareNumbers w = .ok o := by
    intro v w hv hw
    obtain ⟨p, q, -, -, hcmp, -⟩ := numbers hv hw
    exact ⟨_, hcmp⟩
  have hmoments : ∀ (o p : Option Offset) (x : Ordering),
      let compared := Value.compareMoments (if o.isSome == p.isSome then some x else none)
      (o.isNone = p.isNone ∧ ∃ y, compared = .ok y) ∨
        (o.isNone ≠ p.isNone ∧ compared = .error .unlike) := by
    intro o p x
    cases o <;> cases p <;> simp [Value.compareMoments]
  cases hv with
  | int i => exact Or.inl ⟨by cases hw <;> rfl, hnumbers (.int i) hw⟩
  | decimal n c e => exact Or.inl ⟨by cases hw <;> rfl, hnumbers (.decimal n c e) hw⟩
  | dateTime a =>
      cases hw with
      | dateTime b => exact hmoments a.offset b.offset _
  | time a =>
      cases hw with
      | time b => exact hmoments a.offset b.offset _
  | _ => cases hw; exact Or.inl ⟨rfl, _, rfl⟩

theorem compare_eq (hv : Fits k v) (hw : Fits k w) :
    v.compare w = (v.order? w).elim (.error .unlike) fun o => .ok (some o) := by
  rw [Value.order?]
  rcases compare_eq_ok_or hv hw with ⟨hlocal, o, ho⟩ | ⟨hlocal, ho⟩
  · rw [if_pos hlocal, ho, (hv.ranked hw).2 o ho]
    rfl
  · rw [if_neg hlocal, ho]
    rfl

/-- An operator that compares values asks for their order. -/
theorem holds_eq {o : Operator} {rel : Relation} (hrel : o.relation? = some rel) (hv : Fits k v)
    (hw : Fits k w) (fold : Bool) :
    o.holds fold v w = .ok (rel.holds ((v.folded fold).order? (w.folded fold))) := by
  have hv' := hv.folded fold
  have hw' := hw.folded fold
  have hvalues := comparesValues_of_order hrel (equals_eq hv' hw') (compare_eq hv' hw')
    (not_refusesEquality hv' hw')
  cases o <;> cases hrel <;> simp [Operator.holds, hv.not_null, hw.not_null, hvalues]

end Fits

namespace Value

variable {u v w : Value}

theorem order?_swap (v w : Value) : w.order? v = (v.order? w).map Ordering.swap := by
  rw [order?, order?]
  by_cases h : v.isLocal = w.isLocal
  · rw [if_pos h, if_pos h.symm, Option.map_some]
    rw [linearly_swap]
  · rw [if_neg h, if_neg fun h' => h h'.symm]
    rfl

theorem order?_eq_lt_iff :
    v.order? w = some .lt ↔ v.isLocal = w.isLocal ∧ v.rank < w.rank := by
  rw [order?]
  split
  · next h =>
      rw [Option.some_inj, linearly_eq_lt_iff]
      exact (and_iff_right h).symm
  · next h => exact iff_of_false (by simp) fun h' => h h'.1

theorem order?_trans (h : u.order? v = some .lt) (h' : v.order? w = some .lt) :
    u.order? w = some .lt := by
  rw [order?_eq_lt_iff] at h h' ⊢
  exact ⟨h.1.trans h'.1, h.2.trans h'.2⟩

end Value

/-! ## Operators -/

namespace Operator

variable {o : Operator} {fold : Bool} {u v w : Value}

/-- Whether the answer of an operator is yes. -/
def Says (o : Operator) (fold : Bool) (v w : Value) : Prop := o.holds fold v w = .ok true

/-- How the answers of the operators about two values belong together. -/
structure Coherent (fold : Bool) (v w : Value) : Prop where
  answers : ∀ o : Operator, o.isValueless = false → ∃ b, o.holds fold v w = .ok b
  unequal : neq.Says fold v w ↔ ¬ eq.Says fold v w
  swapped : gt.Says fold v w ↔ lt.Says fold w v
  notAfter : lte.Says fold v w ↔ lt.Says fold v w ∨ eq.Says fold v w
  notBefore : gte.Says fold v w ↔ gt.Says fold v w ∨ eq.Says fold v w
  atMostOne : ¬ (lt.Says fold v w ∧ eq.Says fold v w) ∧ ¬ (lt.Says fold v w ∧ gt.Says fold v w) ∧
    ¬ (eq.Says fold v w ∧ gt.Says fold v w)
  atLeastOne : lt.Says fold v w ∨ eq.Says fold v w ∨ gt.Says fold v w ↔ v.isLocal = w.isLocal
  absent : doesNotContain.Says fold v w ↔ ¬ contains.Says fold v w
  atStart : startsWith.Says fold v w → contains.Says fold v w
  atEnd : endsWith.Says fold v w → contains.Says fold v w

/-- Every operator with a condition compares values or looks for a text. -/
theorem compares_or_searches (h : o.isValueless = false) :
    (∃ rel, o.relation? = some rel) ∨ o.isSearch = true := by
  cases o with
  | startsWith => exact Or.inr rfl
  | endsWith => exact Or.inr rfl
  | contains => exact Or.inr rfl
  | doesNotContain => exact Or.inr rfl
  | isNull => cases h
  | isNotNull => cases h
  | isEmpty => cases h
  | isNotEmpty => cases h
  | _ => exact Or.inl ⟨_, rfl⟩

theorem holds_null (h : o.isValueless = false) (fold : Bool) (v : Value) :
    o.holds fold .null v = .ok false ∧ o.holds fold v .null = .ok false := by
  cases o <;> cases h <;> simp [holds, Value.isNull]

theorem exists_searchable (h : ¬ v.HasLongInteger) (fold : Bool) :
    ∃ text, v.searchable fold = .ok text := by
  rw [Value.searchable]
  cases hv : v.plain with
  | ok cs => exact ⟨_, rfl⟩
  | error fault =>
      refine absurd (Value.plainText_eq_error_iff.mp ⟨fault, ?_⟩) h
      rw [Value.plainText, hv]
      rfl

/-- An operator that looks for a text asks for one text in another one. -/
theorem exists_holds_of_isSearch (hv : ¬ v.HasLongInteger) (hw : ¬ w.HasLongInteger)
    (hnull : v.isNull = false) (hnull' : w.isNull = false) (fold : Bool) :
    ∃ text part, ∀ o : Operator, o.isSearch = true →
      o.holds fold v w = .ok (o.matchesText text part) := by
  obtain ⟨text, htext⟩ := exists_searchable hv fold
  obtain ⟨part, hpart⟩ := exists_searchable hw fold
  refine ⟨text, part, fun o ho => ?_⟩
  cases o <;> cases ho <;> rw [holds, hnull, hnull', htext, hpart] <;> rfl

section Compared

variable {k : FieldKind} (hv : Fits k v) (hw : Fits k w)

include hv hw

theorem says_relation_iff {rel : Relation} (hrel : o.relation? = some rel) :
    o.Says fold v w ↔ rel.holds ((v.folded fold).order? (w.folded fold)) = true := by
  rw [Says, hv.holds_eq hrel hw, Except.ok.injEq]

theorem says_lt_iff : lt.Says fold v w ↔ (v.folded fold).order? (w.folded fold) = some .lt := by
  rw [says_relation_iff hv hw rfl, Relation.holds, beq_iff_eq]

end Compared

theorem coherent {k : FieldKind} (hv : Fits k v) (hw : Fits k w) (hlong : ¬ v.HasLongInteger)
    (hlong' : ¬ w.HasLongInteger) (fold : Bool) : Coherent fold v w := by
  obtain ⟨text, part, hsearch⟩ :=
    exists_holds_of_isSearch hlong hlong' hv.not_null hw.not_null fold
  have hswapped : lt.Says fold w v ↔ (v.folded fold).order? (w.folded fold) = some .gt := by
    rw [says_lt_iff hw hv, Value.order?_swap, Option.map_eq_some_iff]
    simp [Ordering.swap_eq_lt]
  have hfinds : ∀ o : Operator, o.isSearch = true → (o.Says fold v w ↔ o.Finds text part) := by
    intro o ho
    rw [Says, hsearch o ho, Except.ok.injEq, matchesText_iff]
  have hlocal : ((v.folded fold).order? (w.folded fold)).isSome = true ↔ v.isLocal = w.isLocal := by
    rw [Value.order?, Value.isLocal_folded, Value.isLocal_folded]
    split
    · next h => exact iff_of_true rfl h
    · next h => exact iff_of_false (by simp) h
  constructor
  case answers =>
    intro o ho
    rcases compares_or_searches ho with ⟨rel, hrel⟩ | ho
    · exact ⟨_, hv.holds_eq hrel hw fold⟩
    · exact ⟨_, hsearch o ho⟩
  case absent => rw [hfinds _ rfl, hfinds _ rfl, Finds, Finds]
  case atStart =>
    rw [hfinds _ rfl, hfinds _ rfl]
    exact List.IsPrefix.isInfix
  case atEnd =>
    rw [hfinds _ rfl, hfinds _ rfl]
    exact List.IsSuffix.isInfix
  all_goals
    simp only [says_relation_iff (o := eq) hv hw rfl, says_relation_iff (o := neq) hv hw rfl,
      says_relation_iff (o := lt) hv hw rfl, says_relation_iff (o := lte) hv hw rfl,
      says_relation_iff (o := gt) hv hw rfl, says_relation_iff (o := gte) hv hw rfl, hswapped,
      ← hlocal]
    cases (v.folded fold).order? (w.folded fold) with
    | none => simp [Relation.holds]
    | some x => cases x <;> simp [Relation.holds]

end Operator

/-- Whether a value other than null comes out of a field. -/
def Field.Gives (f : Field) (v : Value) : Prop := v.isNull = false ∧ ∃ x, f.coerce x = .ok v

theorem Field.Gives.fits {f : Field} {v : Value} (h : f.Gives v) : Fits f.kind v := by
  obtain ⟨hnull, x, hx⟩ := h
  refine (Field.coerce_holds hx).resolve_left fun heq => ?_
  rw [heq] at hnull
  cases hnull

open Operator in
/-- The operators with a condition, asked about two values of a field that have a text, give answers that
belong together; less-than goes over from one value to the next; and null, on whichever side, gets no for
an answer from each of them. -/
theorem operators_cohere (f : Field) (fold : Bool) {u v w : Value} (hu : f.Gives u) (hv : f.Gives v)
    (hw : f.Gives w) (hlong : ¬ v.HasLongInteger) (hlong' : ¬ w.HasLongInteger) :
    Coherent fold v w ∧
    (lt.Says fold u v → lt.Says fold v w → lt.Says fold u w) ∧
    ∀ o : Operator, o.isValueless = false → ∀ x : Value,
      o.holds fold .null x = .ok false ∧ o.holds fold x .null = .ok false := by
  refine ⟨coherent hv.fits hw.fits hlong hlong' fold, fun h h' => ?_, fun o ho => holds_null ho fold⟩
  rw [says_lt_iff hu.fits hv.fits] at h
  rw [says_lt_iff hv.fits hw.fits] at h'
  rw [says_lt_iff hu.fits hw.fits]
  exact Value.order?_trans h h'

/-- A field of numbers with two digits after the point. -/
def weight : Field := ⟨"Weight", none, 10, 2, .numeric, false, false, false⟩

open Operator in
theorem operators_cohere_weight :
    weight.Gives (.int 1) ∧ weight.Gives (.decimal (.finite false 150 (-2))) ∧
    weight.Gives (.decimal (.finite false 2 0)) ∧
    ¬ (Value.decimal (.finite false 150 (-2))).HasLongInteger ∧
    ¬ (Value.decimal (.finite false 2 0)).HasLongInteger ∧
    gt.Says false (.decimal (.finite false 2 0)) (.decimal (.finite false 150 (-2))) ∧
    lt.Says false (.int 1) (.decimal (.finite false 2 0)) := by
  have hu : weight.Gives (.int 1) := ⟨rfl, .bool true, rfl⟩
  have hv : weight.Gives (.decimal (.finite false 150 (-2))) :=
    ⟨rfl, .decimal (.finite false 150 (-2)), rfl⟩
  have hw : weight.Gives (.decimal (.finite false 2 0)) := ⟨rfl, .int 2, rfl⟩
  have hlong : ∀ d, ¬ (Value.decimal d).HasLongInteger := fun d h => nomatch h
  have huv : lt.Says false (.int 1) (.decimal (.finite false 150 (-2))) := by rfl
  have hvw : lt.Says false (.decimal (.finite false 150 (-2))) (.decimal (.finite false 2 0)) := by
    rfl
  have hlaws := operators_cohere weight false hu hw hv (hlong _) (hlong _)
  have htrans := (operators_cohere weight false hu hv hw (hlong _) (hlong _)).2.1
  exact ⟨hu, hv, hw, hlong _, hlong _, hlaws.1.swapped.mpr hvw, htrans huv hvw⟩

end Rowgate
