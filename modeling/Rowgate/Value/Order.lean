import Rowgate.Value.Basic
import Rowgate.Text.Surrogate

/-!
# Equality and order of values

Two values are equal if they stand for the same thing: numbers of every kind by exact value, texts
character by character, lists item by item, dictionaries entry by entry in any order, moments with
an offset by the moment, of which a time of day knows whole seconds of the offset only. Values of
unlike kinds are unequal, and so are a moment with an offset and one without. The values of a key
have to agree more closely: there the whole offset of a time of day counts.

Only values of one kind have an order. Texts are ordered by code point, octets and lists by the
first place where they differ, false before true. A not-a-number among floating point numbers is
neither less nor greater; among decimals it has no order at all.
-/

namespace Rowgate

inductive OrderFault
  /-- They are of unlike kinds, or of a kind without order. -/
  | unlike
  /-- A decimal is no number. -/
  | notANumber
  deriving DecidableEq

namespace Value

/-- Whether two values stand for the same number. -/
def sameNumber (v w : Value) : Bool :=
  match v.number?, w.number? with
  | some a, some b => a.compareValue b == some .eq
  | _, _ => false

mutual

def equals : Value → Value → Bool
  | .null, w => w.isNull
  | .str s, w => match w with
    | .str t => s == t
    | _ => false
  | .bytes a, w => match w with
    | .bytes b => a == b
    | _ => false
  | .date a, w => match w with
    | .date b => a == b
    | _ => false
  | .dateTime a, w => match w with
    | .dateTime b => a.compare? b == some .eq
    | _ => false
  | .time a, w => match w with
    | .time b => a.compare? b == some .eq
    | _ => false
  | .list xs, w => match w with
    | .list ys => equalItems xs ys
    | _ => false
  | .dict es, w => match w with
    | .dict fs => es.length == fs.length && equalEntries es fs
    | _ => false
  | v, w => sameNumber v w

/-- Whether two lists are equal item by item. -/
def equalItems : List Value → List Value → Bool
  | [], ys => ys.isEmpty
  | x :: xs, ys => match ys with
    | y :: ys => equals x y && equalItems xs ys
    | [] => false

/-- Whether every entry is found, with an equal value, in the record. -/
def equalEntries : List (String × Value) → Record → Bool
  | [], _ => true
  | (k, v) :: es, fs =>
    (match Record.field? fs k with
      | some w => equals v w
      | none => false) && equalEntries es fs

end

/-- Whether a signalling not-a-number makes it impossible to compare two numbers. -/
def numbersRefuse (v w : Value) : Bool :=
  match v.number?, w.number? with
  | some a, some b => a.isSignaling || b.isSignaling
  | _, _ => false

mutual

/-- Whether a signalling not-a-number makes it impossible to tell whether two values are equal.
Lists and dictionaries are compared only if they have equally many members, in order, and up to the
first difference. -/
def refusesEquality : Value → Value → Bool
  | .list xs, w => match w with
    | .list ys => xs.length == ys.length && itemsRefuse xs ys
    | _ => false
  | .dict es, w => match w with
    | .dict fs => es.length == fs.length && entriesRefuse es fs
    | _ => false
  | v, w => numbersRefuse v w

/-- Whether the items of two lists cannot be compared. -/
def itemsRefuse : List Value → List Value → Bool
  | [], _ => false
  | x :: xs, ys => match ys with
    | y :: ys => refusesEquality x y || (equals x y && itemsRefuse xs ys)
    | [] => false

/-- Whether some entries cannot be compared with those of a record. -/
def entriesRefuse : List (String × Value) → Record → Bool
  | [], _ => false
  | (k, v) :: es, fs =>
    match Record.field? fs k with
    | some w => refusesEquality v w || (equals v w && entriesRefuse es fs)
    | none => false

end

/-- Whether two values are the same in a key: they are equal, and times of day coincide to the
microsecond. -/
def sameInKey (v w : Value) : Bool :=
  match v, w with
  | .time a, .time b => a.coincides b
  | v, w => equals v w

/-- Whether two keys are the same, value by value. -/
def sameKey : List Value → List Value → Bool
  | [], ys => ys.isEmpty
  | _ :: _, [] => false
  | x :: xs, y :: ys => sameInKey x y && sameKey xs ys

/-- The order of two texts, by code point. -/
def compareText (s t : String) : Ordering := Text.compareCodes s.toList t.toList

def compareOctets : List UInt8 → List UInt8 → Ordering
  | [], [] => .eq
  | [], _ :: _ => .lt
  | _ :: _, [] => .gt
  | a :: as, b :: bs => if a < b then .lt else if b < a then .gt else compareOctets as bs

/-- The order of two numbers; none between a floating point not-a-number and a number. -/
def compareNumbers (v w : Value) : Except OrderFault (Option Ordering) :=
  match v.number?, w.number? with
  | some a, some b =>
    match a.compareValue b, v, w with
    | some o, _, _ => .ok (some o)
    | none, .decimal _, _ => .error .notANumber
    | none, _, .decimal _ => .error .notANumber
    | none, _, _ => .ok none
  | _, _ => .error .unlike

/-- The order of two moments, which must both carry an offset or neither. -/
def compareMoments (o : Option Ordering) : Except OrderFault (Option Ordering) :=
  match o with
  | some o => .ok (some o)
  | none => .error .unlike

mutual

def compare : Value → Value → Except OrderFault (Option Ordering)
  | .null, _ => .error .unlike
  | .dict _, _ => .error .unlike
  | .str s, w => match w with
    | .str t => .ok (some (compareText s t))
    | _ => .error .unlike
  | .bytes a, w => match w with
    | .bytes b => .ok (some (compareOctets a b))
    | _ => .error .unlike
  | .date a, w => match w with
    | .date b => .ok (some (a.compare b))
    | _ => .error .unlike
  | .dateTime a, w => match w with
    | .dateTime b => compareMoments (a.compare? b)
    | _ => .error .unlike
  | .time a, w => match w with
    | .time b => compareMoments (a.compare? b)
    | _ => .error .unlike
  | .list xs, w => match w with
    | .list ys => compareItems xs ys
    | _ => .error .unlike
  | v, w => compareNumbers v w

/-- The order of two lists, by the first items that differ. -/
def compareItems : List Value → List Value → Except OrderFault (Option Ordering)
  | [], ys => .ok (some (if ys.isEmpty then .eq else .lt))
  | x :: xs, ys => match ys with
    | [] => .ok (some .gt)
    | y :: ys =>
      if refusesEquality x y then .error .notANumber
      else if equals x y then compareItems xs ys
      else compare x y

end

/-- Whether the first value comes before the second. -/
def isLess (v w : Value) : Except OrderFault Bool := (compare v w).map (· == some .lt)

end Value

end Rowgate
