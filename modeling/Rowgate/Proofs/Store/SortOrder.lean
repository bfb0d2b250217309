import Mathlib.Data.Sum.Order
import Mathlib.Order.WithBot
import Mathlib.Tactic.FinCases
import Rowgate.Proofs.Sql.Condition
import Rowgate.Proofs.Store.KeyOrder
import Rowgate.Store.Sorting

/-!
# What sorting does to records

A sort orders records by the fields of it that the metadata know, each by the order of its kind. A
value in the form of a field stands among the values of the field where its rank is, and null stands
above them all. In ascending order what stands lower comes first and in descending order what stands
higher, so null comes last in the one and first in the other.

Comparing records one field after the other is comparing the lists of their places in the order of
lists, where a place counts from above if the direction is descending. So the comparison goes by a
rank in a linear order as soon as it succeeds, and it succeeds if the values have the form of their
fields and can be compared. The rest is what is known of every such sort.
-/

namespace Rowgate

open Rowgate.Sort Outcome

/-- In the dual of a linear order members are in the opposite order. -/
theorem linearly_toDual {α : Type} [LinearOrder α] (a b : α) :
    linearly (OrderDual.toDual a) (OrderDual.toDual b) = (linearly a b).swap := by
  rw [linearly, linearly, cmp_swap, cmp_toDual]

/-! ## Values of a field -/

theorem compareZeroed_none (a b : List UInt8) :
    compareZeroed (a, 0) (b, 0) = Value.compareOctets a b := by
  induction a generalizing b with
  | nil =>
      cases b with
      | nil =>
          rw [compareZeroed, Value.compareOctets]
          rfl
      | cons y ys => rw [compareZeroed, Value.compareOctets]
  | cons x xs ih =>
      cases b with
      | nil => rw [compareZeroed, Value.compareOctets]
      | cons y ys => rw [compareZeroed, Value.compareOctets, ih]

namespace Fits

variable {f : Field} {v w : Value}

/-- A sort compares values of a field as the order of values does. -/
theorem compareFor_eq_orderOf (hv : Fits f.kind v) (hw : Fits f.kind w) :
    compareFor (some f) v w = orderOf v w := by
  rw [compareFor, Option.map_some]
  generalize f.kind = kind at hv hw
  cases hv with
  | str s =>
      cases hw with
      | str t =>
          show Except.ok (Value.compareText (.ofList s.toList) (.ofList t.toList)) = _
          rw [String.ofList_toList, String.ofList_toList]
          rfl
  | bytes a =>
      cases hw with
      | bytes b =>
          show Except.ok (compareZeroed (a, 0) (b, 0)) = _
          rw [compareZeroed_none]
          rfl
  | int i => rfl
  | decimal n c e => rfl
  | date d => rfl
  | dateTime t => rfl
  | time t => rfl

theorem compareFor_eq_linearly (hv : Fits f.kind v) (hw : Fits f.kind w) {o : Ordering}
    (h : compareFor (some f) v w = .ok o) : o = linearly v.rank w.rank := by
  rw [compareFor_eq_orderOf hv hw, orderOf] at h
  split at h
  · next o' ho =>
      cases h
      rw [(ranked hv hw).2 o' ho]
      rfl
  · cases h

theorem sure_compareFor (hv : Fits f.kind v) (hw : Fits f.kind w) {o : Option Ordering}
    (h : v.compare w = .ok o) : Sure (fun _ => True) (compareFor (some f) v w) := by
  rw [compareFor_eq_orderOf hv hw, orderOf, h]
  exact sure_ok trivial

end Fits

/-- Where values stand among the values of one field that a sort puts in order. -/
abbrev Standing := WithTop (List ℚ)

/-- Where a value stands: null stands above all others. -/
def Value.standing (v : Value) : Standing := if v.isNull then ⊤ else (v.rank : Standing)

/-! ## Records by one field -/

namespace OrderKey

variable {k : OrderKey} {r a b : Record} {v w : Value} {o : Ordering} {records : List Record}

/-- Where a record stands by the value of one field. -/
def standing (k : OrderKey) (r : Record) : Standing :=
  match k.valueIn r with
  | .ok v => v.standing
  | .error _ => ⊤

/-- Whether a field puts the first record before the second. -/
def Before (k : OrderKey) (a b : Record) : Prop :=
  match k.direction with
  | .ascending => k.standing a < k.standing b
  | .descending => k.standing b < k.standing a

/-- What a sort needs of one field of the records: the values have the form of the field, and any two
of them other than null can be compared. -/
structure Compares (k : OrderKey) (records : List Record) : Prop where
  coerced : ∀ r ∈ records, ∃ v, k.valueIn r = .ok v
  compared : ∀ a ∈ records, ∀ b ∈ records, ∀ v w, k.valueIn a = .ok v → k.valueIn b = .ok w →
    v.isNull = false → w.isNull = false → ∃ o, v.compare w = .ok o

theorem holds_of_valueIn (h : k.valueIn r = .ok v) : k.field.Holds v := by
  rw [valueIn] at h
  cases hc : k.field.coerce (Record.field r k.field.name) with
  | error f =>
      rw [hc] at h
      cases h
  | ok w =>
      rw [hc] at h
      cases h
      exact Field.coerce_holds hc

/-- Values that have the form of a field can be compared unless the field is for moments. -/
theorem compares_of_coerced (hday : k.field.kind ≠ .dateTime) (htime : k.field.kind ≠ .time)
    (h : ∀ r ∈ records, ∃ v, k.valueIn r = .ok v) : k.Compares records where
  coerced := h
  compared := by
    intro a _ b _ v w hv hw hnv hnw
    rcases holds_of_valueIn hv with rfl | hv
    · cases hnv
    · rcases holds_of_valueIn hw with rfl | hw
      · cases hnw
      · have hstep : ∀ {u}, Fits k.field.kind u → u.InStep true := fun h => h.inStep hday htime
        exact hv.exists_compare hw (hstep hv) (hstep hw)

theorem standing_eq (h : k.valueIn r = .ok v) : k.standing r = v.standing := by
  rw [standing, h]

theorem compareNullable_eq_linearly (hv : k.field.Holds v) (hw : k.field.Holds w)
    (h : k.compareNullable v w = .ok o) : o = linearly v.standing w.standing := by
  rw [compareNullable] at h
  rcases hv with rfl | hv
  · rcases hw with rfl | hw
    · cases h
      exact (linearly_self _).symm
    · rw [hw.not_null] at h
      cases h
      rw [Value.standing, Value.standing, hw.not_null]
      exact (linearly_gt (WithTop.coe_lt_top _)).symm
  · rcases hw with rfl | hw
    · rw [hv.not_null] at h
      cases h
      rw [Value.standing, Value.standing, hv.not_null]
      exact (linearly_lt (WithTop.coe_lt_top _)).symm
    · rw [hv.not_null, hw.not_null] at h
      rw [Value.standing, Value.standing, hv.not_null, hw.not_null,
        hv.compareFor_eq_linearly hw h]
      exact (linearly_map WithTop.coe_strictMono v.rank w.rank).symm

theorem sure_compareNullable (hv : k.field.Holds v) (hw : k.field.Holds w)
    (h : v.isNull = false → w.isNull = false → ∃ o, v.compare w = .ok o) :
    Sure (fun _ => True) (k.compareNullable v w) := by
  rw [compareNullable]
  rcases hv with rfl | hv
  · cases w.isNull <;> exact sure_ok trivial
  · rcases hw with rfl | hw
    · rw [hv.not_null]
      exact sure_ok trivial
    · obtain ⟨o, ho⟩ := h hv.not_null hw.not_null
      rw [hv.not_null, hw.not_null]
      exact hv.sure_compareFor hw ho

/-- The place of a record by one field, among places that count from below and places that count from
above. -/
def place (k : OrderKey) (r : Record) : Standing ⊕ₗ Standingᵒᵈ :=
  match k.direction with
  | .ascending => Sum.inlₗ (k.standing r)
  | .descending => Sum.inrₗ (OrderDual.toDual (k.standing r))

theorem linearly_place (k : OrderKey) (a b : Record) :
    linearly (k.place a) (k.place b) =
      directed k.direction (linearly (k.standing a) (k.standing b)) := by
  rw [place, place]
  cases k.direction with
  | ascending =>
      have hmono : StrictMono (Sum.inlₗ : Standing → Standing ⊕ₗ Standingᵒᵈ) := fun _ _ h =>
        Sum.Lex.inl_lt_inl_iff.mpr h
      exact linearly_map hmono _ _
  | descending =>
      have hmono : StrictMono (Sum.inrₗ : Standingᵒᵈ → Standing ⊕ₗ Standingᵒᵈ) := fun _ _ h =>
        Sum.Lex.inr_lt_inr_iff.mpr h
      exact (linearly_map hmono _ _).trans (linearly_toDual _ _)

theorem before_iff_place : k.Before a b ↔ k.place a < k.place b := by
  rw [Before, place, place]
  cases k.direction with
  | ascending => exact (Sum.Lex.inl_lt_inl_iff (α := Standing) (β := Standingᵒᵈ)).symm
  | descending => exact (Sum.Lex.inr_lt_inr_iff (α := Standing) (β := Standingᵒᵈ)).symm

theorem place_eq_iff : k.place a = k.place b ↔ k.standing a = k.standing b := by
  rw [place, place]
  cases k.direction with
  | ascending => exact Sum.inl_injective.eq_iff
  | descending => exact Sum.inr_injective.eq_iff

/-- Records that are compared by one field are compared by their places. -/
theorem compare_eq_linearly (h : k.compare a b = .ok o) : o = linearly (k.place a) (k.place b) := by
  rw [compare] at h
  obtain ⟨v, hv, h⟩ := bind_eq_ok.mp h
  obtain ⟨w, hw, h⟩ := bind_eq_ok.mp h
  obtain ⟨o', ho, h⟩ := bind_eq_ok.mp h
  cases h
  rw [linearly_place, standing_eq hv, standing_eq hw,
    compareNullable_eq_linearly (holds_of_valueIn hv) (holds_of_valueIn hw) ho]

theorem Compares.sure (h : k.Compares records) (ha : a ∈ records) (hb : b ∈ records) :
    Sure (fun _ => True) (k.compare a b) := by
  obtain ⟨v, hv⟩ := h.coerced a ha
  obtain ⟨w, hw⟩ := h.coerced b hb
  have hsure := sure_compareNullable (holds_of_valueIn hv) (holds_of_valueIn hw)
    (h.compared a ha b hb v w hv hw)
  rw [compare, hv, hw]
  exact hsure.bind fun o _ => sure_ok trivial

end OrderKey

/-! ## Records by several fields -/

variable {keys : List OrderKey} {a b : Record} {records sorted : List Record} {fields : List Field}
  {sort : List SortKey} {o : Ordering}

/-- Whether several fields in turn allow the first record before the second. -/
def Precedes : List OrderKey → Record → Record → Prop
  | [], _, _ => True
  | k :: ks, a, b => k.Before a b ∨ k.standing a = k.standing b ∧ Precedes ks a b

/-- Whether records stand at the same place by every one of some fields. -/
def ties (keys : List OrderKey) (a b : Record) : Bool :=
  keys.all fun k => k.standing a == k.standing b

/-- The places of a record by several fields. -/
def places (keys : List OrderKey) (r : Record) :
    List (Standing ⊕ₗ Standingᵒᵈ) := keys.map (·.place r)

theorem precedes_iff_places : Precedes keys a b ↔ places keys a ≤ places keys b := by
  induction keys with
  | nil => exact iff_of_true trivial le_rfl
  | cons k ks ih =>
      rw [Precedes, ih, OrderKey.before_iff_place, ← OrderKey.place_eq_iff, le_iff_lt_or_eq,
        and_or_left, ← or_assoc, ← List.cons_lt_cons_iff, ← List.cons.injEq, ← le_iff_lt_or_eq]
      rfl

theorem ties_iff_places : ties keys a b = true ↔ places keys a = places keys b := by
  rw [ties, List.all_eq_true, places, places, List.map_inj_left]
  exact forall₂_congr fun k _ => by rw [beq_iff_eq, OrderKey.place_eq_iff]

/-- Records that are compared by several fields are compared by the lists of their places. -/
theorem compareRecords_eq_linearly (h : compareRecords keys a b = .ok o) :
    o = linearly (places keys a) (places keys b) := by
  induction keys generalizing o with
  | nil =>
      cases h
      exact (linearly_self _).symm
  | cons k ks ih =>
      rw [compareRecords] at h
      obtain ⟨first, hfirst, h⟩ := bind_eq_ok.mp h
      rw [places, places, List.map_cons, List.map_cons, linearly_cons,
        ← OrderKey.compare_eq_linearly hfirst]
      cases first with
      | eq => exact ih h
      | lt =>
          cases h
          rfl
      | gt =>
          cases h
          rfl

theorem sure_compareRecords (h : ∀ k ∈ keys, k.Compares records) (ha : a ∈ records)
    (hb : b ∈ records) : Sure (fun _ => True) (compareRecords keys a b) := by
  induction keys with
  | nil => exact sure_ok trivial
  | cons k ks ih =>
      obtain ⟨hk, hks⟩ := List.forall_mem_cons.mp h
      rw [compareRecords]
      refine (hk.sure ha hb).bind fun o _ => ?_
      cases o with
      | eq => exact ih hks
      | lt => exact sure_ok trivial
      | gt => exact sure_ok trivial

/-! ## Sorting -/

/-- The fields of a sort that the metadata know. -/
def knownKeys (fields : List Field) (sort : List SortKey) : List OrderKey :=
  sort.filterMap fun s => (fieldNamed? fields s.field).map fun f => ⟨f, s.direction⟩

theorem result_orderKeys (fields : List Field) (sort : List SortKey) :
    (orderKeys fields sort).result = .ok (knownKeys fields sort) := by
  induction sort with
  | nil => rfl
  | cons s rest ih =>
      rw [orderKeys, knownKeys, List.filterMap_cons]
      cases fieldNamed? fields s.field with
      | none => rw [Traced.result_bind, Traced.result_note]; exact ih
      | some f => rw [Traced.result_bind, ih]; rfl

theorem result_sortRecords (fields : List Field) (sort : List SortKey) (records : List Record) :
    (sortRecords fields sort records).result =
      sortBy (fun a b => (compareRecords (knownKeys fields sort) a b).map (· == .lt)) records := by
  rw [sortRecords, Traced.result_bind, result_orderKeys]
  rfl

theorem isLess_eq_linearly {t : Bool} (h : (compareRecords keys a b).map (· == .lt) = .ok t) :
    t = (linearly (places keys a) (places keys b) == .lt) := by
  cases hc : compareRecords keys a b with
  | error f =>
      rw [hc] at h
      cases h
  | ok o =>
      rw [hc] at h
      cases h
      rw [compareRecords_eq_linearly hc]

/-- Records whose values can be compared are sorted: the same records come out, in the order of the
known fields of the sort, and those that tie with a record by all of these fields stay in the order in
which they were given. -/
theorem sorts_by_known_fields (h : ∀ k ∈ knownKeys fields sort, k.Compares records) :
    ∃ sorted, (sortRecords fields sort records).result = .ok sorted ∧
      sorted.Perm records ∧
      sorted.Pairwise (Precedes (knownKeys fields sort)) ∧
      ∀ r, sorted.filter (ties (knownKeys fields sort) r) =
        records.filter (ties (knownKeys fields sort) r) := by
  rw [result_sortRecords]
  generalize knownKeys fields sort = keys at h
  have hdecides : Decides (· ∈ records) fun a b => (compareRecords keys a b).map (· == .lt) :=
    fun a b ha hb => (sure_compareRecords h ha hb).map fun _ _ => trivial
  obtain ⟨sorted, hsorted, -⟩ := sure_sortBy hdecides fun _ hr => hr
  refine ⟨sorted, hsorted, perm_of_sortBy hsorted, ?_, fun r => ?_⟩
  · have hpairwise : sorted.Pairwise fun a b => places keys a ≤ places keys b :=
      pairwise_of_sortBy
        (fun a _ b _ t ht => (isLess_eq_linearly ht).trans (linearly_beq_lt _ _)) hsorted
    exact hpairwise.imp fun hle => precedes_iff_places.mpr hle
  · refine filter_of_sortBy (fun a b hless ha => ?_) hsorted
    have hlt : places keys a < places keys b :=
      (cmp_eq_lt_iff _ _).mp (beq_iff_eq.mp (isLess_eq_linearly hless).symm)
    rw [← Bool.not_eq_true, ties_iff_places, ties_iff_places.mp ha]
    exact hlt.ne

/-- Goods with prices that are equal, or not known. -/
def assortment : List Record := [
  [("Name", .str "oil"), ("Price", .int 2)],
  [("Name", .str "tea"), ("Price", .null)],
  [("Name", .str "salt"), ("Price", .decimal (.finite false 200 (-2)))],
  [("Name", .str "rice"), ("Price", .int 3)]]

/-- An order by price, which names a field that goods do not have. -/
def dearFirst : List SortKey :=
  [⟨"Price", .descending⟩, ⟨"Colour", .ascending⟩, ⟨"Price", .ascending⟩]

theorem sorts_by_known_fields_assortment :
    (∀ k ∈ knownKeys goods.fields dearFirst, k.Compares assortment) ∧
      ∃ sorted, (sortRecords goods.fields dearFirst assortment).result = .ok sorted ∧
        sorted.Perm assortment ∧ sorted.Pairwise (Precedes (knownKeys goods.fields dearFirst)) ∧
        ∀ r, sorted.filter (ties (knownKeys goods.fields dearFirst) r) =
          assortment.filter (ties (knownKeys goods.fields dearFirst) r) := by
  have hkeys : ∀ k ∈ knownKeys goods.fields dearFirst, k.Compares assortment := by
    intro k hk
    have hprice : k.field = ⟨"Price", none, 0, 2, .numeric, false, false, false⟩ := by
      fin_cases hk <;> rfl
    refine OrderKey.compares_of_coerced (by rw [hprice]; decide) (by rw [hprice]; decide)
      fun r hr => ?_
    rw [OrderKey.valueIn, hprice]
    fin_cases hr <;> exact ⟨_, rfl⟩
  exact ⟨hkeys, sorts_by_known_fields hkeys⟩

/-- The goods without a price come first, and those with equal prices stay as they were. -/
example : (sortRecords goods.fields dearFirst assortment).result = .ok [
    [("Name", .str "tea"), ("Price", .null)],
    [("Name", .str "rice"), ("Price", .int 3)],
    [("Name", .str "oil"), ("Price", .int 2)],
    [("Name", .str "salt"), ("Price", .decimal (.finite false 200 (-2)))]] := by
  cbv

end Rowgate
