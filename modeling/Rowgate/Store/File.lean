import Rowgate.Entity.Coerce
import Rowgate.Store.Sorting
import Rowgate.Work

/-!
# Indexed files

A file holds the records of an entity, every record in the form of its fields and at most one record
for each key. Keys are the same as `Value.sameKey` says, so the integer one and the decimal one are
the same key, while two times of day that are equal can be different ones. Scanning a file gives its
records in the order of their keys, if the keys have an order.

What is done to a file is work on it, which leaves a file behind also where it fails.
-/

namespace Rowgate

structure File where
  entity : Entity
  records : List Record

namespace File

def empty (e : Entity) : File := ⟨e, []⟩

def hasKey (f : File) (key : List Value) (r : Record) : Bool :=
  Value.sameKey (f.entity.keyOf r) key

/-- Whether a value can be part of a key. -/
def canBeKey : Value → Bool
  | .list _ => false
  | .dict _ => false
  | .decimal d => !d.isSignaling
  | _ => true

def find? (f : File) (key : List Value) : Option Record := f.records.find? (f.hasKey key)

/-- Whether the file holds a record with a key. -/
def contains (f : File) (key : List Value) : Bool := (f.find? key).isSome

/-- The key of a record in this file. -/
def keyOf (f : File) (r : Record) : List Value := f.entity.keyOf r

/-- A record in the form of the fields. -/
def coerce (f : File) (r : Record) : Except Fault Record := (f.entity.coerce r).mapError .value

/-- The record in place of the one with the same key. -/
def put (f : File) (r : Record) : File :=
  { f with records := f.records.map fun old => if f.hasKey (f.keyOf r) old then r else old }

def append (f : File) (r : Record) : File := { f with records := f.records ++ [r] }

/-- Stores a record, in place of the one with the same key if there is one. -/
def store (f : File) (r : Record) : Except Fault File := do
  let r ← f.coerce r
  .ok (if f.contains (f.keyOf r) then f.put r else f.append r)

def storeAll (f : File) : List Record → Except Fault File
  | [] => .ok f
  | r :: rs => do
    let f ← f.store r
    f.storeAll rs

/-- The file of an entity with some records. -/
def ofRecords (e : Entity) (rs : List Record) : Except Fault File := (empty e).storeAll rs

/-- The record of a key, of a form that keys can have. -/
def read (f : File) (key : List Value) : Except Fault (Option Record) :=
  if key.all canBeKey then .ok (f.find? key) else .error .noKey

/-- Adds a record, whose key must be free. -/
def write (r : Record) : Work File Unit := do
  let f ← Work.state
  let r ← Work.ofResult (f.coerce r)
  if f.contains (f.keyOf r) then Work.fail .keyTaken
  else Work.change fun f => f.append r

/-- Replaces the record with the same key, and says whether there is one. -/
def replace (r : Record) : Work File Bool := do
  let f ← Work.state
  let r ← Work.ofResult (f.coerce r)
  if f.contains (f.keyOf r) then do
    Work.change fun f => f.put r
    return true
  else return false

/-- The file without the record of a key. -/
def erase (f : File) (key : List Value) : File :=
  { f with records := f.records.filter fun r => !f.hasKey key r }

/-- Deletes the record of a key, and says whether there was one. An empty file is not even
searched. -/
def delete (key : List Value) : Work File Bool := do
  let f ← Work.state
  if f.records.isEmpty then return false
  else if key.all canBeKey then
    if f.contains key then do
      Work.change fun f => f.erase key
      return true
    else return false
  else Work.fail .noKey

def clear (f : File) : File := { f with records := [] }

/-! ## What the work on a file comes to -/

theorem outcome_write (f : File) (r : Record) :
    (File.write r).outcome f =
      match f.coerce r with
      | .error fault => (.error fault, f)
      | .ok c => if f.contains (f.keyOf c) then (.error .keyTaken, f) else (.ok (), f.append c) := by
  rw [File.write, Work.outcome_state_bind, Work.outcome_bind, Work.outcome_ofResult]
  cases f.coerce r with
  | error fault => rfl
  | ok c =>
      dsimp only
      split <;> rfl

theorem outcome_replace (f : File) (r : Record) :
    (File.replace r).outcome f =
      match f.coerce r with
      | .error fault => (.error fault, f)
      | .ok c => if f.contains (f.keyOf c) then (.ok true, f.put c) else (.ok false, f) := by
  rw [File.replace, Work.outcome_state_bind, Work.outcome_bind, Work.outcome_ofResult]
  cases f.coerce r with
  | error fault => rfl
  | ok c =>
      dsimp only
      split <;> rfl

theorem outcome_delete (f : File) (key : List Value) :
    (File.delete key).outcome f =
      if f.records.isEmpty then (.ok false, f)
      else if key.all canBeKey then
        if f.contains key then (.ok true, f.erase key) else (.ok false, f)
      else (.error .noKey, f) := by
  rw [File.delete, Work.outcome_state_bind]
  split
  · rfl
  · split
    · split <;> rfl
    · rfl

/-! ## Scanning -/

/-- Whether a record comes before another in the order of the keys. -/
def isBefore (f : File) (a b : Record) : Except Fault Bool :=
  match Value.compareItems (f.keyOf a) (f.keyOf b) with
  | .ok o => .ok (o == some .lt)
  | .error e => .error (.order e)

/-- The records in the order of their keys. -/
def scan (f : File) : Except Fault (List Record) := Sort.sortBy f.isBefore f.records

end File

end Rowgate
