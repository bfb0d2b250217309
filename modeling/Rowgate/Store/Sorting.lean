import Rowgate.Entity.Coerce
import Rowgate.Log
import Rowgate.Query.Basic
import Rowgate.Sort.Runs

/-!
# Orders of records

Records are put in order by the fields that a query names, one after the other: a field decides
where all fields before it are equal. Null stands after every value in ascending order and before
every value in descending order. Records that no field tells apart keep their places.

Sorting is by insertion, with a comparison that may fail.
-/

namespace Rowgate

/-! ## Comparing values of a field -/

/-- The order of two values; values without one count as equal. -/
def orderOf (v w : Value) : Except Fault Ordering :=
  match v.compare w with
  | .ok o => .ok (o.getD .eq)
  | .error f => .error (.order f)

/-- The order of two values by their texts. -/
def orderOfTexts (v w : Value) : Except Fault Ordering :=
  match v.plainText, w.plainText with
  | .ok s, .ok t => .ok (Value.compareText s t)
  | .error f, _ => .error (.value (.integer f))
  | _, .error f => .error (.value (.integer f))

/-- The octets that a value stands for: a number for that many zeros and a list for its items. They
are octets and the number of zeros after them. -/
def octetsOf (v : Value) : Except Fault (List UInt8 × Nat) :=
  match v with
  | .bytes octets => .ok (octets, 0)
  | .bool b => .ok ([], if b then 1 else 0)
  | .int i =>
    if !Shape.fitsWord i then .error .tooLarge
    else if i < 0 then .error (.value .negativeCount)
    else .ok ([], i.toNat)
  | .list items => do
    let octets ← items.mapM octetOf
    .ok (octets, 0)
  | .dict [] => .ok ([], 0)
  | _ => .error (.order .unlike)
where
  /-- The octet that an item of a list stands for. -/
  octetOf (v : Value) : Except Fault UInt8 :=
    match v with
    | .bool b => .ok (if b then 1 else 0)
    | .int i =>
      if 0 ≤ i ∧ i < 256 then .ok (UInt8.ofNat i.toNat) else .error (.value .notOctet)
    | _ => .error (.order .unlike)

/-- The order of octets, `m` zeros after the first and `n` after the second. -/
def compareZeroed : List UInt8 × Nat → List UInt8 × Nat → Ordering
  | ([], m), ([], n) => compare m n
  | ([], m), (b :: bs, n) =>
    match m with
    | 0 => .lt
    | m + 1 => if b = 0 then compareZeroed ([], m) (bs, n) else .lt
  | (a :: as, m), ([], n) =>
    match n with
    | 0 => .gt
    | n + 1 => if a = 0 then compareZeroed (as, m) ([], n) else .gt
  | (a :: as, m), (b :: bs, n) =>
    if a < b then .lt else if b < a then .gt else compareZeroed (as, m) (bs, n)
termination_by x y => x.1.length + y.1.length

/-- The order of the octets that two values stand for. -/
def orderOfOctets (v w : Value) : Except Fault Ordering := do
  let v ← octetsOf v
  let w ← octetsOf w
  .ok (compareZeroed v w)

/-- The order of two values other than null of a field. -/
def compareFor (field : Option Field) (v w : Value) : Except Fault Ordering :=
  match field.map Field.kind with
  | some .string => orderOfTexts v w
  | some .byteArray => orderOfOctets v w
  | _ => orderOf v w

/-! ## Comparing records -/

/-- A field to order by, with its metadata. -/
structure OrderKey where
  field : Field
  direction : Direction

namespace OrderKey

/-- The order of two values of the field, null last. -/
def compareNullable (k : OrderKey) (v w : Value) : Except Fault Ordering :=
  match v.isNull, w.isNull with
  | true, true => .ok .eq
  | true, false => .ok .gt
  | false, true => .ok .lt
  | false, false => compareFor (some k.field) v w

def directed (d : Direction) (o : Ordering) : Ordering :=
  match d with
  | .ascending => o
  | .descending => o.swap

/-- The value of the field in a record. -/
def valueIn (k : OrderKey) (r : Record) : Except Fault Value :=
  (k.field.coerce (Record.field r k.field.name)).mapError .value

/-- The order of two records by one field. -/
def compare (k : OrderKey) (a b : Record) : Except Fault Ordering := do
  let v ← k.valueIn a
  let w ← k.valueIn b
  let o ← k.compareNullable v w
  .ok (directed k.direction o)

end OrderKey

/-- The order of two records by some fields in turn. -/
def compareRecords : List OrderKey → Record → Record → Except Fault Ordering
  | [], _, _ => .ok .eq
  | k :: ks, a, b => do
    match ← k.compare a b with
    | .eq => compareRecords ks a b
    | o => .ok o

/-- The fields to order by that the metadata know; others are passed over. -/
def orderKeys (fields : List Field) : List SortKey → Traced (List OrderKey)
  | [] => return []
  | k :: ks =>
    match fieldNamed? fields k.field with
    | none => do
      Traced.note .files .debug ("Ignoring sort on unknown field " ++ k.field)
      orderKeys fields ks
    | some field => do
      let rest ← orderKeys fields ks
      return ⟨field, k.direction⟩ :: rest

def sortRecords (fields : List Field) (sort : List SortKey) (records : List Record) :
    Traced (List Record) := do
  let keys ← orderKeys fields sort
  Traced.ofResult (Sort.sortBy (fun a b => (compareRecords keys a b).map (· == .lt)) records)

end Rowgate
