import Rowgate.Calendar.Date
import Rowgate.Number.Binary64

/-!
# Values

What a field of a record, a condition of a filter and a part of a request body may hold. Requests
are written by clients, so a value can be of any kind at any place until it has been checked against
the metadata of its field.

A record is a list of entries with different names; the order of the entries is the order in which
the names were first set.
-/

namespace Rowgate

inductive Value
  | null
  | bool (b : Bool)
  | int (i : Int)
  | decimal (d : Decimal)
  | float (f : Binary64)
  | str (s : String)
  | bytes (octets : List UInt8)
  | date (d : Date)
  | dateTime (t : DateTime)
  | time (t : Time)
  | list (items : List Value)
  | dict (entries : List (String × Value))

instance : Inhabited Value := ⟨.null⟩

/-- Named values, each name once. -/
abbrev Record := List (String × Value)

/-! ## Records -/

namespace Record

/-- The value of a name, if the record has it. -/
def field? (r : Record) (name : String) : Option Value :=
  match r with
  | [] => none
  | (k, v) :: rest => if k = name then some v else field? rest name

/-- The value of a name, null if the record does not have it. -/
def field (r : Record) (name : String) : Value := (field? r name).getD .null

def has (r : Record) (name : String) : Bool := (field? r name).isSome

def names (r : Record) : List String := r.map (·.1)

/-- Sets the value of a name: in its place if the record has it, else at the end. -/
def set (r : Record) (name : String) (value : Value) : Record :=
  match r with
  | [] => [(name, value)]
  | (k, v) :: rest => if k = name then (k, value) :: rest else (k, v) :: set rest name value

/-- The record of a list of entries, where a later entry of a name wins and the first one keeps the
place. -/
def ofEntries (entries : List (String × Value)) : Record :=
  entries.foldl (fun r (k, v) => set r k v) []

theorem field?_set_self (r : Record) (name : String) (value : Value) :
    field? (set r name value) name = some value := by
  induction r with
  | nil => simp [set, field?]
  | cons e rest ih =>
    obtain ⟨k, v⟩ := e
    by_cases h : k = name <;> simp [set, field?, h, ih]

theorem field?_set_of_ne (r : Record) {name other : String} (value : Value) (h : other ≠ name) :
    field? (set r name value) other = field? r other := by
  induction r with
  | nil => simp [set, field?, Ne.symm h]
  | cons e rest ih =>
    obtain ⟨k, v⟩ := e
    by_cases hk : k = name
    · subst hk; simp [set, field?, Ne.symm h]
    · by_cases ho : k = other
      · subst ho; simp [set, field?, hk]
      · simp [set, field?, hk, ho, ih]

end Record

namespace Value

def isNull : Value → Bool
  | .null => true
  | _ => false

/-- The number that a value stands for; a truth value is 0 or 1. -/
def number? : Value → Option Decimal
  | .bool b => some (.ofInt (if b then 1 else 0))
  | .int i => some (.ofInt i)
  | .decimal d => some d
  | .float f => some f.toDecimal
  | _ => none

/-- Whether the value counts as true: null, zero and whatever is empty do not. -/
def isTrue : Value → Bool
  | .null => false
  | .bool b => b
  | .int i => i != 0
  | .decimal (.finite _ c _) => c != 0
  | .float (.finite _ m _) => m != 0
  | .str s => !s.isEmpty
  | .bytes octets => !octets.isEmpty
  | .list items => !items.isEmpty
  | .dict entries => !entries.isEmpty
  | _ => true

def str? : Value → Option String
  | .str s => some s
  | _ => none

/-! ## Values that are the same

Two values are the same if they are spelled in the same way: `1` and `1.0` stand for one number, but
are two values. -/

mutual

/-- Whether two values are the same, in kind and in spelling. -/
def same : Value → Value → Bool
  | .null, .null => true
  | .bool a, .bool b => a == b
  | .int i, .int j => i == j
  | .decimal d, .decimal e => d == e
  | .float f, .float g => f == g
  | .str s, .str t => s == t
  | .bytes os, .bytes ps => os == ps
  | .date d, .date e => d == e
  | .dateTime t, .dateTime u => t == u
  | .time t, .time u => t == u
  | .list vs, .list ws => sameItems vs ws
  | .dict es, .dict fs => sameEntries es fs
  | _, _ => false

/-- Whether two lists of values are the same. -/
def sameItems : List Value → List Value → Bool
  | [], [] => true
  | v :: vs, w :: ws => same v w && sameItems vs ws
  | _, _ => false

/-- Whether two lists of entries are the same, in the same order. -/
def sameEntries : List (String × Value) → List (String × Value) → Bool
  | [], [] => true
  | (k, v) :: es, (l, w) :: fs => k == l && same v w && sameEntries es fs
  | _, _ => false

end

mutual

theorem same_iff : ∀ v w : Value, same v w = true ↔ v = w
  | .list vs, w => by cases w <;> simp [same, sameItems_iff vs]
  | .dict es, w => by cases w <;> simp [same, sameEntries_iff es]
  | .null, w => by cases w <;> simp [same]
  | .bool _, w => by cases w <;> simp [same]
  | .int _, w => by cases w <;> simp [same]
  | .decimal _, w => by cases w <;> simp [same]
  | .float _, w => by cases w <;> simp [same]
  | .str _, w => by cases w <;> simp [same]
  | .bytes _, w => by cases w <;> simp [same]
  | .date _, w => by cases w <;> simp [same]
  | .dateTime _, w => by cases w <;> simp [same]
  | .time _, w => by cases w <;> simp [same]

theorem sameItems_iff : ∀ vs ws : List Value, sameItems vs ws = true ↔ vs = ws
  | [], ws => by cases ws <;> simp [sameItems]
  | v :: vs, ws => by
      cases ws with
      | nil => simp [sameItems]
      | cons w ws => simp [sameItems, same_iff v w, sameItems_iff vs ws]

theorem sameEntries_iff : ∀ es fs : List (String × Value), sameEntries es fs = true ↔ es = fs
  | [], fs => by cases fs <;> simp [sameEntries]
  | (k, v) :: es, fs => by
      cases fs with
      | nil => simp [sameEntries]
      | cons f fs =>
          obtain ⟨l, w⟩ := f
          simp [sameEntries, same_iff v w, sameEntries_iff es fs]

end

instance : DecidableEq Value := fun v w => decidable_of_iff _ (same_iff v w)

end Value

end Rowgate
