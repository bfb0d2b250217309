import Rowgate.Calendar.Pattern
import Rowgate.Filter.Tree
import Rowgate.Text.Pieces

/-!
# Searching all fields

A search is one text for all fields of an entity. The text is understood once: as a range of numbers
or of moments if a hyphen between spaces separates two of a kind, else as one moment, else as one
number, else as words. Text that is written with digits, signs and one point alone is never a
moment.

The filter of a search looks for the text in every text field, whatever the case of its letters, and
for the number or the moment in the fields that can hold one. One such field is enough.
-/

namespace Rowgate

/-- A day, or a time of a day. -/
inductive Moment
  | date (d : Date)
  | dateTime (t : DateTime)

def Moment.toValue : Moment → Value
  | .date d => .date d
  | .dateTime t => .dateTime t

/-- What the text of a search stands for. -/
inductive Search
  | words
  | number (n : Decimal)
  | numbers (low high : Decimal)
  | moment (m : Moment)
  | moments (first last : Moment)

namespace Search

/-! ## Understanding a text -/

def dropFirstPoint (cs : List Char) : List Char :=
  cs.takeWhile (· != '.') ++ (cs.dropWhile (· != '.')).drop 1

/-- Whether a text is written with digits alone, after signs and with one point at most. -/
def isNumeric (cs : List Char) : Bool :=
  let ds := dropFirstPoint (cs.dropWhile fun c => c == '+' || c == '-')
  !ds.isEmpty && ds.all Text.isDigitLike

/-- The offset of universal time written out instead of `Z`. -/
def spellOffset (cs : List Char) : List Char :=
  match cs.reverse with
  | 'Z' :: rest => rest.reverse ++ "+00:00".toList
  | _ => cs

/-- The moment that a text stands for: in the international notation, or in one of the common
ones. -/
def moment? (cs : List Char) : Option Moment :=
  let cs := Text.trim cs
  if cs.isEmpty || isNumeric cs then none
  else
    match Iso.readDate (String.ofList cs) with
    | .ok d => some (.date d)
    | .error _ =>
      match Iso.readDateTime (String.ofList (spellOffset cs)) with
      | .ok t => some (.dateTime t)
      | .error _ =>
        ((Pattern.readDate? cs).map .date).or ((Pattern.readDateTime? cs).map .dateTime)

/-- The finite number that a text stands for. -/
def number? (cs : List Char) : Option Decimal := (Decimal.read? (Text.trim cs)).filter (·.isFinite)

def separator : List Char := [' ', '-', ' ']

/-- The first of two numbers in ascending order, the left one if they are equal. -/
def smaller (a b : Decimal) : Decimal := if b.compareValue a = some .lt then b else a

/-- The last of two numbers in ascending order, the left one if they are equal. -/
def larger (a b : Decimal) : Decimal := if b.compareValue a = some .gt then b else a

/-- The range from one text to another. Numbers are put in order, moments stay as written. -/
def range? (a b : List Char) : Option Search :=
  match moment? a, moment? b with
  | some m, some n => some (.moments m n)
  | _, _ =>
    match number? a, number? b with
    | some m, some n => some (.numbers (smaller m n) (larger m n))
    | _, _ => none

def single (cs : List Char) : Search :=
  match moment? cs with
  | some m => .moment m
  | none =>
    match number? cs with
    | some n => .number n
    | none => .words

def ofText (s : String) : Search :=
  let cs := s.toList
  match Text.splitOn separator cs with
  | [a, b] => (range? a b).getD (single cs)
  | _ => single cs

/-! ## The filter of a search -/

/-- A test of a field for a value; a field without a name cannot be tested. -/
def testOf (f : Field) (operator : Operator) (v : Value) (ignoreCase : Bool) :
    Except Fault Filter :=
  if f.name.isEmpty then .error (.shape [⟨[], Filter.incomplete⟩])
  else .ok (.leaf (.of f.name operator v ignoreCase))

def rangeOf (f : Field) (lower upper : Value) : Except Fault Filter :=
  (Filter.between f.name lower upper).mapError .value

/-- The filter of a field, if the field can hold what is searched. -/
def fragment (s : Search) (text : String) (f : Field) : Except Fault (Option Filter) :=
  match f.kind, s with
  | .string, _ => (testOf f .contains (.str text) true).map some
  | .numeric, .number n => (testOf f .eq (.decimal n) false).map some
  | .numeric, .numbers low high => (rangeOf f (.decimal low) (.decimal high)).map some
  | .date, .moment m => (testOf f .eq m.toValue false).map some
  | .date, .moments m n => (rangeOf f m.toValue n.toValue).map some
  | .dateTime, .moment m => (testOf f .eq m.toValue false).map some
  | .dateTime, .moments m n => (rangeOf f m.toValue n.toValue).map some
  | _, _ => .ok none

/-- The filters of all fields that can hold what is searched. -/
def fragments (s : Search) (text : String) : List Field → Except Fault (List Filter)
  | [] => .ok []
  | f :: fs => do
    let first ← fragment s text f
    let rest ← fragments s text fs
    .ok (first.toList ++ rest)

/-- One of some filters is enough; a single filter stands for itself. -/
def anyOf : List Filter → Option Filter
  | [] => none
  | [f] => some f
  | fs => some (.group .any (fs.map some))

/-- The filter of a search in some fields; blank text searches nothing. -/
def filterIn (text : String) (fields : List Field) : Except Fault (Option Filter) :=
  if (Text.trim text.toList).isEmpty then .ok none
  else (fragments (ofText text) text fields).map anyOf

end Search

end Rowgate
