import Rowgate.Cache.Basic

/-!
# Callers of a cache

Several callers may want values at once. Each key has a lock: who finds no fresh value takes the
lock of the key and loads, and others wait in line for the lock. Who comes first in line when the
lock is free looks again for a fresh value before it loads. So a value is loaded once for all who
wait for it, and if it could not be loaded, each of them tries in turn.

A caller acts without interruption from one wait to the next. `Desk.turn` is such a stretch: it
takes a caller from its arrival, its place in line or the end of its loading to its next wait or its
answer. The callers of a desk may take their turns in any order. The clock goes on during a turn, so
a caller may see a different time whenever it looks at it.
-/

namespace Rowgate

inductive Stage (V : Type)
  /-- It has come and done nothing yet. -/
  | arriving
  /-- It waits in line for the lock of its key. -/
  | waiting
  /-- It has the lock, and its call number `call` to the loader runs since a time. -/
  | loading (since : Reading) (call : Nat)
  | answered (outcome : Except Fault V)

/-- A caller and the key it wants the value of. -/
structure Caller (V : Type) where
  key : String
  stage : Stage V

/-- What a caller sees on the clock after the first time in a turn: when it looks for a fresh value
again, and when it begins to load. -/
structure Glances where
  again : Reading
  started : Reading

/-- A clock that stands still. -/
def Glances.still (now : Reading) : Glances := ⟨now, now⟩

structure Desk (V : Type) where
  cache : Cache V
  callers : List (Caller V)
  /-- The callers that wait, in the order in which they began to. -/
  line : List Nat
  /-- How many calls to loaders have begun. -/
  calls : Nat

namespace Desk

variable {V : Type}

def caller? (d : Desk V) (i : Nat) : Option (Caller V) := d.callers[i]?

def keyOf? (d : Desk V) (i : Nat) : Option String := (d.caller? i).map Caller.key

/-- Whether a caller has the lock of a key. -/
def Caller.holds (key : String) (c : Caller V) : Bool :=
  match c.stage with
  | .loading _ _ => c.key == key
  | _ => false

/-- Whether the lock of a key is taken. -/
def isLocked (d : Desk V) (key : String) : Bool := d.callers.any (Caller.holds key)

/-- Who comes first in line for a key. -/
def first? (d : Desk V) (key : String) : Option Nat := d.line.find? fun i => d.keyOf? i == some key

def setStage (d : Desk V) (i : Nat) (stage : Stage V) : Desk V :=
  { d with callers := d.callers.modify i fun c => { c with stage } }

/-- Stores a value and answers it to a caller, with an entry if one is given. A value that cannot be
stored is a fault for the caller. -/
def answer (d : Desk V) (i : Nat) (key : String) (v : V) (entry : Option Entry) :
    Desk V × List Entry :=
  match d.cache.store key v with
  | .ok cache => ({ d.setStage i (.answered (.ok v)) with cache }, entry.toList)
  | .error f => (d.setStage i (.answered (.error f)), [])

def setClock (d : Desk V) (now : Reading) : Desk V := { d with cache := d.cache.setClock now }

/-- Lets a caller take the lock of its key and load. -/
def beginLoad (d : Desk V) (i : Nat) : Desk V :=
  { d.setStage i (.loading d.cache.now (d.calls + 1)) with calls := d.calls + 1 }

/-- Lets a caller wait in line. -/
def enqueue (d : Desk V) (i : Nat) : Desk V :=
  { d.setStage i .waiting with line := d.line ++ [i] }

/-- Lets a caller leave the line. -/
def dequeue (d : Desk V) (i : Nat) : Desk V := { d with line := d.line.filter (· != i) }

/-- A caller that may have the lock of its key looks again, and loads only if there is still no
fresh value. -/
def lookAgain (started : Reading) (d : Desk V) (i : Nat) (key : String) : Desk V × List Entry :=
  match d.cache.fresh? key with
  | some v => d.answer i key v none
  | none => ((d.setClock started).beginLoad i, [])

/-- A caller arrives: it is answered at once, or may have the lock of its key, or waits in line. -/
def arrive (glances : Glances) (d : Desk V) (i : Nat) (key : String) : Desk V × List Entry :=
  match d.cache.fresh? key with
  | some v => d.answer i key v (some (Cache.hitEntry key))
  | none =>
    if d.isLocked key || (d.first? key).isSome then (d.enqueue i, [])
    else lookAgain glances.started (d.setClock glances.again) i key

/-- The call of a caller to its loader ends. A value is stored for all; a fault is only for the
caller. -/
def finish (count : V → Int) (d : Desk V) (i : Nat) (key : String) (since : Reading)
    (outcome : Except Fault V) : Desk V × List Entry :=
  match outcome with
  | .error f => (d.setStage i (.answered (.error f)), [])
  | .ok v =>
    match d.cache.now.since? since with
    | some seconds => d.answer i key v (some (Cache.loadedEntry key (count v) seconds))
    | none => ((d.answer i key v none).1.setStage i (.answered (.error .tooLarge)), [])

/-- The turn of a caller, where `outcome` is what its call to the loader comes to if one is running.
Who waits behind others, or for a lock that is taken, does nothing. -/
def turn (count : V → Int) (glances : Glances) (outcome : Except Fault V) (d : Desk V) (i : Nat) :
    Desk V × List Entry :=
  match d.caller? i with
  | none => (d, [])
  | some c =>
    match c.stage with
    | .arriving => arrive glances d i c.key
    | .waiting =>
      if !d.isLocked c.key && d.first? c.key == some i then
        lookAgain glances.started (d.dequeue i) i c.key
      else (d, [])
    | .loading since _ => finish count d i c.key since outcome
    | .answered _ => (d, [])

def join (d : Desk V) (key : String) : Desk V :=
  { d with callers := d.callers ++ [⟨key, .arriving⟩] }

end Desk

end Rowgate
