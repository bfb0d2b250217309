import Rowgate.Value.Order
import Rowgate.Proofs.Calendar.Ordinal
import Rowgate.Proofs.Number.Magnitude
import Mathlib.Data.List.Lex

/-!
# What values stand for

A value is written in some way: the number one as an integer or as a decimal of any length, a text
as characters, a date as a year, a month and a day. `Value.datum?` forgets the way and keeps what is
meant: a rational number, a list of codes, a day, a moment. Data have the order of the mathematical
objects they are, and data of unlike sorts have none; a moment of local time and one of universal
time are of unlike sorts.

The library compares values by what they stand for: `Fits.comparedAs` says so of values in the form
of one field, and `Fits.sameInKey_iff` of the values of keys, which are the same exactly if they
stand for the same datum. Times of day with an offset are why keys need a statement of their own:
equality does not look at the fraction of a second of an offset, but keys do, so the datum keeps it.
-/

namespace Rowgate

/-! ## Linear orders

Lists are in lexicographic order. -/

/-- The order of two members of a linear order. -/
def linearly {α : Type} [LinearOrder α] (a b : α) : Ordering := cmp a b

theorem linearly_eq_compare {α : Type} [LinearOrder α] (a b : α) : linearly a b = compare a b :=
  cmp_eq_compare a b

theorem linearly_lt {α : Type} [LinearOrder α] {a b : α} (h : a < b) : linearly a b = .lt :=
  (cmp_eq_lt_iff a b).mpr h

theorem linearly_gt {α : Type} [LinearOrder α] {a b : α} (h : b < a) : linearly a b = .gt :=
  (cmp_eq_gt_iff a b).mpr h

theorem linearly_self {α : Type} [LinearOrder α] (a : α) : linearly a a = .eq := cmp_self_eq_eq a

/-- Mapping to another linear order in a strictly monotone way keeps the order. -/
theorem linearly_map {α β : Type} [LinearOrder α] [LinearOrder β] {f : α → β} (hf : StrictMono f)
    (a b : α) : linearly (f a) (f b) = linearly a b :=
  hf.cmp_map_eq a b

theorem linearly_eq_iff {α : Type} [LinearOrder α] {a b : α} : linearly a b = .eq ↔ a = b :=
  cmp_eq_eq_iff a b

theorem linearly_eq_lt_iff {α : Type} [LinearOrder α] {a b : α} : linearly a b = .lt ↔ a < b :=
  cmp_eq_lt_iff a b

theorem linearly_swap {α : Type} [LinearOrder α] (a b : α) : (linearly a b).swap = linearly b a :=
  cmp_swap a b

theorem linearly_cons {α : Type} [LinearOrder α] (a b : α) (as bs : List α) :
    linearly (a :: as) (b :: bs) = (linearly a b).then (linearly as bs) := by
  rcases lt_trichotomy a b with h | rfl | h
  · rw [linearly_lt h, Ordering.lt_then, linearly_lt]
    exact List.cons_lt_cons_iff.mpr (Or.inl h)
  · rw [linearly_self, Ordering.eq_then]
    rcases lt_trichotomy as bs with h | rfl | h
    · rw [linearly_lt h, linearly_lt]
      exact List.cons_lt_cons_iff.mpr (Or.inr ⟨rfl, h⟩)
    · rw [linearly_self, linearly_self]
    · rw [linearly_gt h, linearly_gt]
      exact List.cons_lt_cons_iff.mpr (Or.inr ⟨rfl, h⟩)
  · rw [linearly_gt h, Ordering.gt_then, linearly_gt]
    exact List.cons_lt_cons_iff.mpr (Or.inl h)

theorem linearly_nil_cons {α : Type} [LinearOrder α] (b : α) (bs : List α) :
    linearly [] (b :: bs) = .lt :=
  linearly_lt (List.nil_lt_cons b bs)

theorem linearly_cons_nil {α : Type} [LinearOrder α] (a : α) (as : List α) :
    linearly (a :: as) [] = .gt :=
  linearly_gt (List.nil_lt_cons a as)

namespace Text

theorem compareCodes_eq_linearly (cs ds : List Char) :
    compareCodes cs ds = linearly (codes cs) (codes ds) := by
  induction cs generalizing ds with
  | nil =>
      cases ds with
      | nil => exact (linearly_self _).symm
      | cons d ds => rw [compareCodes, codes, codes, List.map_nil, List.map_cons, linearly_nil_cons]
  | cons c cs ih =>
      cases ds with
      | nil => rw [compareCodes, codes, codes, List.map_nil, List.map_cons, linearly_cons_nil]
      | cons d ds =>
          have htail := ih ds
          rw [codes, codes] at htail
          rw [compareCodes, codes, codes, List.map_cons, List.map_cons, linearly_cons, ← htail]
          split
          · next h => rw [linearly_lt h, Ordering.lt_then]
          · next h =>
              split
              · next h' => rw [linearly_gt h', Ordering.gt_then]
              · next h' => rw [linearly_eq_iff.mpr (by omega), Ordering.eq_then]

end Text

/-! ## Data -/

/-- What a value stands for. -/
inductive Datum
  | number (q : ℚ)
  | text (codes : List Nat)
  | octets (codes : List Nat)
  /-- A date, by the number of its day. -/
  | day (number : Nat)
  /-- A timestamp of local time, in microseconds. -/
  | localMoment (micros : Int)
  /-- A timestamp of universal time, in microseconds. -/
  | moment (micros : Int)
  /-- A local time of day, in microseconds. -/
  | localTime (micros : Int)
  /-- A universal time of day, in microseconds up to the whole seconds of its offset, and what the
  offset has beyond those. -/
  | time (micros fraction : Int)
  deriving DecidableEq

/-- The order of two data, if they are of one sort. -/
def Datum.order? : Datum → Datum → Option Ordering
  | .number p, .number q => some (linearly p q)
  | .text a, .text b => some (linearly a b)
  | .octets a, .octets b => some (linearly a b)
  | .day m, .day n => some (linearly m n)
  | .localMoment m, .localMoment n => some (linearly m n)
  | .moment m, .moment n => some (linearly m n)
  | .localTime m, .localTime n => some (linearly m n)
  | .time m f, .time n g => some (linearly (m - f) (n - g))
  | _, _ => none

namespace Value

/-- The datum that a value stands for. Null stands for none, and so does what can stand in no
field. -/
def datum? : Value → Option Datum
  | .bool b => some (.number (if b then 1 else 0))
  | .int i => some (.number i)
  | .decimal d => d.rational?.map .number
  | .float f => f.toDecimal.rational?.map .number
  | .str s => some (.text (Text.codes s.toList))
  | .bytes octets => some (.octets (octets.map UInt8.toNat))
  | .date d => some (.day d.ordinal)
  | .dateTime t => some (if t.offset.isSome then .moment t.moment else .localMoment t.moment)
  | .time t =>
    some (match t.offset with
      | some o => .time t.moment o.fraction
      | none => .localTime t.moment)
  | _ => none

/-- Whether a value is no moment of universal time. -/
def isLocal : Value → Bool
  | .dateTime t => t.offset.isNone
  | .time t => t.offset.isNone
  | _ => true

theorem compareOctets_eq_linearly (a b : List UInt8) :
    compareOctets a b = linearly (a.map UInt8.toNat) (b.map UInt8.toNat) := by
  induction a generalizing b with
  | nil =>
      cases b with
      | nil => exact (linearly_self _).symm
      | cons y ys => rw [compareOctets, List.map_nil, List.map_cons, linearly_nil_cons]
  | cons x xs ih =>
      cases b with
      | nil => rw [compareOctets, List.map_nil, List.map_cons, linearly_cons_nil]
      | cons y ys =>
          rw [compareOctets, List.map_cons, List.map_cons, linearly_cons, ← ih]
          simp only [UInt8.lt_iff_toNat_lt]
          split
          · next h => rw [linearly_lt h, Ordering.lt_then]
          · next h =>
              split
              · next h' => rw [linearly_gt h', Ordering.gt_then]
              · next h' => rw [linearly_eq_iff.mpr (by omega), Ordering.eq_then]

end Value

end Rowgate
