import Rowgate.Cache.Callers

/-!
# Taking turns

Callers that start together take their turns first come, first served. A caller that starts to load
goes to the end of those that are ready, and a caller that gives up a lock makes the next in line
for it ready. The clock goes on only while a caller loads.
-/

namespace Rowgate

/-- How values are loaded: what each call comes to, and how far the clock goes on during a call. -/
structure Loader (V : Type) where
  outcome : Nat → Except Fault V
  goOn : Reading → Reading

namespace Desk

variable {V : Type}

/-- The number of the call that a caller has running. -/
def running? (d : Desk V) (i : Nat) : Option Nat :=
  match (d.caller? i).map Caller.stage with
  | some (.loading _ call) => some call
  | _ => none

/-- The turn of a caller, whose call to the loader takes its time before it ends. -/
def timedTurn (count : V → Int) (l : Loader V) (d : Desk V) (i : Nat) : Desk V × List Entry :=
  let still := Glances.still d.cache.now
  match d.running? i with
  | some call => turn count still (l.outcome call) (d.setClock (l.goOn d.cache.now)) i
  | none => turn count still (l.outcome 0) d i

/-- The outcome of a caller that has been answered. -/
def outcome? (d : Desk V) (i : Nat) : Option (Except Fault V) :=
  match (d.caller? i).map Caller.stage with
  | some (.answered r) => some r
  | _ => none

/-- Who becomes ready after the turn of a caller: itself while it loads, and the next in line once
it is answered and the lock of its key is free. -/
def readied (d : Desk V) (i : Nat) : List Nat :=
  match d.running? i, d.keyOf? i with
  | some _, _ => [i]
  | none, some key =>
    if (d.outcome? i).isSome && !d.isLocked key then (d.first? key).toList else []
  | none, none => []

/-- Lets those that are ready take their turns, at most `turns` of them. -/
def run (count : V → Int) (l : Loader V) : (turns : Nat) → Desk V → List Nat → Desk V × List Entry
  | 0, d, _ => (d, [])
  | _, d, [] => (d, [])
  | turns + 1, d, i :: ready =>
    let (d, log) := timedTurn count l d i
    let (d, more) := run count l turns d (ready ++ readied d i)
    (d, log ++ more)

/-- How many turns callers can need: to arrive, to be admitted, and to end loading. -/
def turnsFor (callers : Nat) : Nat := 3 * callers

/-- What callers that come together have got at the end. -/
structure Gathered (V : Type) where
  cache : Cache V
  calls : Nat
  log : List Entry
  outcomes : List (Except Fault V)

/-- Callers for some keys come together, after some calls to the loader. -/
def gather (count : V → Int) (l : Loader V) (cache : Cache V) (calls : Nat) (keys : List String) :
    Gathered V :=
  let start : Desk V := ⟨cache, keys.map fun key => ⟨key, .arriving⟩, [], calls⟩
  let numbers := List.range keys.length
  let (d, log) := run count l (turnsFor keys.length) start numbers
  ⟨d.cache, d.calls, log, numbers.filterMap d.outcome?⟩

end Desk

end Rowgate
